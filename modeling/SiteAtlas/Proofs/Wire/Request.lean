import SiteAtlas.Proofs.Codec.Record
import SiteAtlas.Proofs.Wire.Envelope

/-!
# Requests read back from their lines

A service has nothing but the line of a request. The line is JSON, and what is read from it is the
request again, its token and its method included, if the parameters nest one level less than a
reader allows. So the line determines the request.
-/
namespace SiteAtlas

open Json (FloatFree Canonical)
open Channel (lineEnd)

/-- The name of a method leads back to the method. -/
theorem Method.readsBack (m : Method) : codec.ReadsBack m := by
  cases m <;> rfl

namespace Request

/-- All numbers in the parameters are integers that fit 64 bits, and the keys of every object
ascend. -/
def Integral (r : Request) : Prop := FloatFree r.params ∧ Canonical r.params

theorem lawful : shape.Lawful where
  known := by simp [shape, Shape.field?, Field.Known]
  get_put := by simp [shape]
  get_put_of_ne := by simp [shape]
  ext := by
    rintro ⟨⟩ ⟨⟩ h
    simpa [shape] using h

theorem readsBack (r : Request) : shape.codec.ReadsBack r := by
  have hparams : Codec.any.ReadsBack r.params := rfl
  apply lawful.readsBack
  simp [shape, Method.readsBack, hparams]

theorem ascending_members (r : Request) :
    Ascending [("id", .text r.id), ("method", .text r.method.name), ("params", r.params)] := by
  refine List.pairwise_cons.2 ⟨?_, ascending_pair (by decide) _ _⟩
  simp only [List.forall_mem_cons]
  exact ⟨by decide, by decide, by simp⟩

theorem encode_eq (r : Request) : shape.encode r =
    .object [("id", .text r.id), ("method", .text r.method.name), ("params", r.params)] :=
  congrArg Json.object (sortEntries_eq_self r.ascending_members)

theorem depth_encode (r : Request) : (shape.encode r).depth = r.params.depth + 1 := by
  simp [encode_eq, Json.depth, Json.membersDepth]

theorem Integral.encode {r : Request} (h : r.Integral) :
    FloatFree (shape.encode r) ∧ Canonical (shape.encode r) := by
  rw [encode_eq]
  exact ⟨⟨trivial, trivial, h.1, trivial⟩, r.ascending_members, trivial, trivial, h.2, trivial⟩

theorem bytes_eq_append (r : Request) :
    r.bytes = Utf8.encode (shape.encode r).chars ++ [lineEnd] :=
  encode_append_newline _

/-- A line end is a blank to a reader of JSON. -/
theorem isSpace_lineEnd : ∀ b ∈ [lineEnd], Json.isSpace b = true :=
  List.forall_mem_singleton.2 rfl

/-- The line of a request is JSON from which the request is read again, and no other request of
integers has the same line. Parameters that nest more than 126 containers deep make the line too
deep to be read. -/
theorem line_reads_back :
    (∀ r : Request, r.Integral →
      (r.params.depth ≤ 126 → ∃ j, Json.read r.bytes = .ok j ∧ shape.decode j = .ok r) ∧
      (126 < r.params.depth → ∃ why, Json.read r.bytes = .error why ∧ why.cause = .tooDeep)) ∧
    ∀ r q : Request, r.Integral → q.Integral → r.line = q.line → r = q := by
  refine ⟨fun r hr => ⟨fun hd => ?_, fun hd => ?_⟩, fun r q hr hq hline => ?_⟩
  · have hdepth : (shape.encode r).depth ≤ Json.depthLimit := by
      rw [depth_encode]
      exact Nat.succ_le_succ hd
    refine ⟨shape.encode r, ?_, r.readsBack⟩
    rw [bytes_eq_append]
    exact Json.readWithin_chars_append hr.encode.1 hr.encode.2 hdepth isSpace_lineEnd
  · have hdepth : Json.depthLimit < (shape.encode r).depth := by
      rw [depth_encode]
      exact Nat.succ_lt_succ hd
    rw [bytes_eq_append]
    exact Json.readWithin_chars_append_of_lt hr.encode.1 hr.encode.2 hdepth isSpace_lineEnd
  · have hencode : shape.encode r = shape.encode q :=
      Json.eq_of_chars_eq hr.encode hq.encode (List.append_cancel_right hline)
    have hr : shape.decode (shape.encode r) = .ok r := r.readsBack
    have hq : shape.decode (shape.encode q) = .ok q := q.readsBack
    rw [hencode, hq] at hr
    exact (Except.ok.inj hr).symm

/-- The limit is exact, and requests that differ in the method only have different lines. -/
theorem line_reads_back_nested :
    let r : Request := ⟨"\n\"", .pathfind, Response.nested 125⟩
    let deeper : Request := ⟨"\n\"", .pathfind, Response.nested 126⟩
    let other : Request := ⟨"\n\"", .perceive, Response.nested 125⟩
    r.Integral ∧ (∃ j, Json.read r.bytes = .ok j ∧ shape.decode j = .ok r) ∧
      (∃ why, Json.read deeper.bytes = .error why ∧ why.cause = .tooDeep) ∧
      r.line ≠ other.line := by
  intro r deeper other
  have hr : r.Integral := Response.integral_nested 125
  have hdeeper : deeper.Integral := Response.integral_nested 126
  obtain ⟨hreads, hline⟩ := line_reads_back
  refine ⟨hr, (hreads r hr).1 (Nat.le_of_eq (Response.depth_nested 125)),
    (hreads deeper hdeeper).2
      (Nat.lt_of_lt_of_eq (Nat.lt_succ_self 126) (Response.depth_nested 126).symm), fun h => ?_⟩
  have hmethod : r.method = other.method := congrArg method (hline r other hr hr h)
  cases hmethod

end Request

end SiteAtlas
