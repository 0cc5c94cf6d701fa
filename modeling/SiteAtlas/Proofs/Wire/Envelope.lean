import SiteAtlas.Proofs.Json.Members
import SiteAtlas.Proofs.Json.RoundTrip
import SiteAtlas.Proofs.Wire.Framing

/-!
# Responses read back from their lines

The envelope is one container around the payload, so a response survives its line exactly when the
payload nests one level less than the reader allows.
-/
namespace SiteAtlas

open Json (FloatFree Canonical MembersFloatFree MembersCanonical)

theorem ascending_pair {α : Type} {k l : String} (h : compare k l = .lt) (v w : α) :
    Ascending [(k, v), (l, w)] := by
  refine List.pairwise_cons.2 ⟨?_, List.pairwise_singleton _ _⟩
  intro e he
  obtain rfl := List.mem_singleton.1 he
  exact h

/-- Two members whose keys ascend stay as they are. -/
theorem Json.ofMembers_pair {k l : String} (h : compare k l = .lt) (v w : Json) :
    Json.ofMembers [(k, v), (l, w)] = .object [(k, v), (l, w)] :=
  congrArg Json.object (sortEntries_eq_self (ascending_pair h v w))

/-- Two members whose keys descend are swapped. -/
theorem Json.ofMembers_pair_swap {k l : String} (h : compare l k = .lt) (v w : Json) :
    Json.ofMembers [(k, v), (l, w)] = .object [(l, w), (k, v)] := by
  have hsort : sortEntries [(k, v), (l, w)] = [(l, w), (k, v)] := by
    simp only [sortEntries, List.foldl_cons, List.foldl_nil, putEntry, h]
  exact congrArg Json.object hsort

theorem ServiceError.encode_eq (e : ServiceError) :
    ServiceError.shape.encode e = .object [("code", .text e.code), ("message", .text e.message)] :=
  Json.ofMembers_pair (by decide) _ _

theorem ServiceError.decode_encode (e : ServiceError) :
    ServiceError.shape.decode (ServiceError.shape.encode e) = .ok e := by
  rw [ServiceError.encode_eq]
  rfl

namespace Response

/-- All numbers are integers that fit 64 bits, and the keys of every object ascend. -/
def Integral : Response → Prop
  | .result v => FloatFree v ∧ Canonical v
  | .error _ => True

/-- How deep the payload nests; the report of a failure counts as a scalar. -/
def payloadDepth : Response → Nat
  | .result v => v.depth
  | .error _ => 0

theorem envelope_result (v : Json) (id : String) :
    (result v).envelope id = .object [("id", .text id), ("result", v)] :=
  Json.ofMembers_pair (by decide) _ _

theorem envelope_error (e : ServiceError) (id : String) :
    (error e).envelope id =
      .object [("error", ServiceError.shape.encode e), ("id", .text id)] :=
  Json.ofMembers_pair_swap (by decide) _ _

theorem depth_envelope_result (v : Json) (id : String) :
    ((result v).envelope id).depth = v.depth + 1 := by
  simp [envelope_result, Json.depth, Json.membersDepth]

theorem depth_envelope_error (e : ServiceError) (id : String) :
    ((error e).envelope id).depth = 2 := by
  simp [envelope_error, ServiceError.encode_eq, Json.depth, Json.membersDepth]

theorem floatFree_envelope {r : Response} (h : r.Integral) (id : String) :
    FloatFree (r.envelope id) := by
  cases r with
  | result v =>
    rw [envelope_result]
    exact ⟨trivial, h.1, trivial⟩
  | error e =>
    rw [envelope_error, ServiceError.encode_eq]
    exact ⟨⟨trivial, trivial, trivial⟩, trivial, trivial⟩

theorem canonical_envelope {r : Response} (h : r.Integral) (id : String) :
    Canonical (r.envelope id) := by
  cases r with
  | result v =>
    rw [envelope_result]
    exact ⟨ascending_pair (by decide) _ _, trivial, h.2, trivial⟩
  | error e =>
    rw [envelope_error, ServiceError.encode_eq]
    refine ⟨ascending_pair (by decide) _ _, ⟨ascending_pair (by decide) _ _, ?_⟩, trivial, trivial⟩
    exact ⟨trivial, trivial, trivial⟩

/-- The members of an envelope are the response again, whatever the token. -/
theorem ofMembers_envelope (r : Response) (id : String) :
    ∃ ms, r.envelope id = .object ms ∧ ofMembers ms = .ok r := by
  cases r with
  | result v =>
    refine ⟨_, envelope_result v id, ?_⟩
    have hresult : entryAt? "result" [("id", .text id), ("result", v)] = some v := by
      rw [entryAt?_cons_of_ne (by decide), entryAt?_cons_self]
    have herror : entryAt? "error" [("id", .text id), ("result", v)] = none := by
      rw [entryAt?_cons_of_ne (by decide), entryAt?_cons_of_ne (by decide), entryAt?_nil]
    rw [ofMembers, hresult, herror]
  | error e =>
    refine ⟨_, envelope_error e id, ?_⟩
    have hresult :
        entryAt? "result" [("error", ServiceError.shape.encode e), ("id", .text id)] = none := by
      rw [entryAt?_cons_of_ne (by decide), entryAt?_cons_of_ne (by decide), entryAt?_nil]
    have herror : entryAt? "error" [("error", ServiceError.shape.encode e), ("id", .text id)] =
        some (ServiceError.shape.encode e) := entryAt?_cons_self _ _ _
    rw [ofMembers, hresult, herror]
    simp only [ServiceError.decode_encode]
    rfl

/-- The line of a response without its line end is the text of its envelope. -/
theorem dropLast_encode_line (r : Response) (id : String) :
    (Utf8.encode (r.line id)).dropLast = Utf8.encode (r.envelope id).chars := by
  rw [line, encode_append_newline, List.dropLast_concat]

/-- A response of integers is read back from its line, whatever the token, if its payload nests at
most 126 containers deep; a deeper one is refused as no JSON, for its depth. -/
theorem ofLine_line (r : Response) (id : String) (h : r.Integral) :
    (r.payloadDepth ≤ 126 → ofLine (Utf8.encode (r.line id)).dropLast = .ok r) ∧
      (126 < r.payloadDepth → ∃ why,
        ofLine (Utf8.encode (r.line id)).dropLast = .error (.notJson why) ∧
          why.cause = .tooDeep) := by
  have hfree := floatFree_envelope h id
  have hcanonical := canonical_envelope h id
  rw [dropLast_encode_line]
  constructor
  · intro hd
    have hdepth : (r.envelope id).depth ≤ Json.depthLimit := by
      cases r with
      | result v =>
        rw [depth_envelope_result]
        exact Nat.succ_le_succ hd
      | error e =>
        rw [depth_envelope_error]
        decide
    obtain ⟨ms, henvelope, hms⟩ := ofMembers_envelope r id
    have hread : Json.read (Utf8.encode (r.envelope id).chars) = .ok (.object ms) := by
      rw [Json.read, Json.readWithin_chars hfree hcanonical hdepth, henvelope]
    rw [ofLine, hread]
    exact hms
  · intro hd
    have hdepth : Json.depthLimit < (r.envelope id).depth := by
      cases r with
      | result v =>
        rw [depth_envelope_result]
        exact Nat.succ_lt_succ hd
      | error e => exact absurd hd (Nat.not_lt_zero 126)
    obtain ⟨why, hread, hcause⟩ := Json.readWithin_chars_of_lt hfree hcanonical hdepth
    refine ⟨why, ?_, hcause⟩
    rw [ofLine, Json.read, hread]

/-- A list in a list, and so on, `n` of them around the innermost one. -/
def nested : Nat → Json
  | 0 => .list []
  | n + 1 => .list [nested n]

theorem depth_nested (n : Nat) : (nested n).depth = n + 1 := by
  induction n with
  | zero => rfl
  | succ n ih => rw [nested, Json.depth, Json.itemsDepth, Json.itemsDepth, ih, Nat.max_zero]

theorem integral_nested (n : Nat) : (result (nested n)).Integral := by
  induction n with
  | zero => exact ⟨trivial, trivial⟩
  | succ n ih => exact ⟨⟨ih.1, trivial⟩, ih.2, trivial⟩

/-- The limit is exact: 126 lists are read back, and 127 are refused. -/
theorem ofLine_line_nested :
    (∀ n, (result (nested n)).Integral) ∧
      ofLine (Utf8.encode ((result (nested 125)).line "\n")).dropLast =
        .ok (result (nested 125)) ∧
      ∃ why, ofLine (Utf8.encode ((result (nested 126)).line "\n")).dropLast =
        .error (.notJson why) ∧ why.cause = .tooDeep :=
  ⟨integral_nested,
    (ofLine_line (result (nested 125)) "\n" (integral_nested 125)).1
      (Nat.le_of_eq (depth_nested 125)),
    (ofLine_line (result (nested 126)) "\n" (integral_nested 126)).2
      (Nat.lt_of_lt_of_eq (Nat.lt_succ_self 126) (depth_nested 126).symm)⟩

end Response

end SiteAtlas
