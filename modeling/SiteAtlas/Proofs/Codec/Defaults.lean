import Mathlib.Logic.Relation
import SiteAtlas.Client.Request
import SiteAtlas.Proofs.Codec.Fields
import SiteAtlas.Proofs.Codec.ValueObjects
import SiteAtlas.Service.Session

/-!
# Missing members count as defaults

An object can be filled up with the defaults of the fields of which it has nothing, and with members
that no field knows, one by one and in any order, and it can be thinned out in the same way. What is
read from it stays the same.
-/
namespace SiteAtlas

namespace Shape

variable {ρ : Type} {s : Shape ρ}

/-- An object with one more member: one that no field knows, or the default of a field of which the
object had nothing, under its name or an alias. -/
inductive Addition (s : Shape ρ) : List (String × Json) → List (String × Json) → Prop
  | unknown (front back : List (String × Json)) {key : String} {j : Json}
      (foreign : ∀ f ∈ s.fields, ¬f.Known key) :
      Addition s (front ++ back) (front ++ (key, j) :: back)
  | default (front back : List (String × Json)) {key : String} {j : Json} {f : Field ρ}
      (declared : f ∈ s.fields) (known : f.Known key)
      (absent : ∀ m ∈ front ++ back, ¬f.Known m.1)
      (value : f.codec.decode j = .ok (f.get s.blank)) :
      Addition s (front ++ back) (front ++ (key, j) :: back)

/-- A shape whose fields may all be left out, and whose defaults can be written out. -/
structure Lenient (s : Shape ρ) : Prop extends s.Regular where
  optional : ∀ f ∈ s.fields, f.presence ≠ .required
  readsBack : ∀ f ∈ s.fields, f.codec.ReadsBack (f.get s.blank)

theorem Lenient.decode_of_addition (h : s.Lenient) {a b : List (String × Json)}
    (hab : s.Addition a b) {r : ρ} :
    s.decode (.object a) = .ok r ↔ s.decode (.object b) = .ok r := by
  rw [h.decode_object_eq_ok, h.decode_object_eq_ok]
  refine forall₂_congr fun g hg => ?_
  cases hab with
  | unknown front back foreign =>
    rw [g.valuesIn_append, g.valuesIn_append, Field.valuesIn_cons_of_not_known (foreign g hg)]
  | @default front back key j f hf known absent value =>
    by_cases hname : g.name = f.name
    · -- the field is given by the member what it would have kept without it
      obtain rfl := h.eq_of_name hg hf hname
      have hnone : g.valuesIn (front ++ back) = [] := Field.valuesIn_eq_nil_iff.2 absent
      rw [g.valuesIn_append, List.append_eq_nil_iff] at hnone
      rw [g.valuesIn_append, g.valuesIn_append, Field.valuesIn_cons_of_known known, hnone.1,
        hnone.2, List.nil_append, List.nil_append, Field.gives_single, value]
      simp [Field.Gives, h.optional g hg, eq_comm]
    · have hother : ¬g.Known key := h.not_known hf hg hname known
      rw [g.valuesIn_append, g.valuesIn_append, Field.valuesIn_cons_of_not_known hother]

/-- Any number of additions, done or undone. -/
theorem Lenient.decode_of_eqvGen (h : s.Lenient) {a b : List (String × Json)}
    (hab : Relation.EqvGen s.Addition a b) {r : ρ} :
    s.decode (.object a) = .ok r ↔ s.decode (.object b) = .ok r := by
  induction hab with
  | rel a b hadd => exact h.decode_of_addition hadd
  | refl a => rfl
  | symm a b _ ih => exact ih.symm
  | trans a b c _ _ hfirst hsecond => exact hfirst.trans hsecond

theorem Lenient.decode_empty (h : s.Lenient) : s.decode (.object []) = .ok s.blank :=
  h.decode_object_eq_ok.2 fun f hf => ⟨fun hrequired => absurd hrequired (h.optional f hf), rfl⟩

theorem readResult_eq_ok {method : Method} {j : Json} {r : ρ} :
    s.readResult method j = .ok r ↔ s.decode j.orEmpty = .ok r :=
  mapError_eq_ok

end Shape

/-- The shapes of results, and of what is nested in them, of which every field has a default. -/
def resultShapes : List (Σ ρ : Type, Shape ρ) := [
  ⟨_, NodeMatch.shape⟩, ⟨_, Path.shape⟩, ⟨_, RefreshResult.shape⟩, ⟨_, ActResult.shape⟩,
  ⟨_, PoolStatus.shape⟩, ⟨_, RuntimeStatus.shape⟩, ⟨_, HandshakeResult.shape⟩,
  ⟨_, MapInfo.shape⟩, ⟨_, QueryResult.shape⟩, ⟨_, PerceiveResult.shape⟩, ⟨_, AuthResult.shape⟩]

theorem QueryResult.lawful : shape.Lawful where
  known := by simp [shape, Shape.field?, Field.Known]
  get_put := by simp [shape]
  get_put_of_ne := by simp [shape]
  ext := by
    rintro ⟨⟩ ⟨⟩ h
    simpa [shape] using h

theorem PerceiveResult.lawful : shape.Lawful where
  known := by simp [shape, Shape.field?, Field.Known]
  get_put := by simp [shape]
  get_put_of_ne := by simp [shape]
  ext := by
    rintro ⟨⟩ ⟨⟩ h
    simpa [shape] using h

theorem AuthResult.lawful : shape.Lawful where
  known := by simp [shape, Shape.field?, Field.Known]
  get_put := by simp [shape]
  get_put_of_ne := by simp [shape]
  ext := by
    rintro ⟨⟩ ⟨⟩ h
    simpa [shape] using h

theorem lenient_resultShapes : ∀ s ∈ resultShapes, s.2.Lenient := by
  have hzero : Codec.double.ReadsBack 0.0 := Codec.readsBack_double_iff.2 (by decide)
  have hempty : Features.codec.ReadsBack .empty := Features.readsBack (by decide)
  have hnone {α : Type} (c : Codec α) : (Codec.optional c).ReadsBack none := rfl
  simp only [resultShapes, List.forall_mem_cons, List.not_mem_nil, false_imp_iff, implies_true,
    and_true]
  exact ⟨⟨⟨NodeMatch.lawful, by decide⟩, by simp [NodeMatch.shape],
      by simp [NodeMatch.shape, hzero, hempty, hnone]⟩,
    ⟨⟨Path.lawful, by decide⟩, by simp [Path.shape], by simp [Path.shape, hzero]⟩,
    ⟨⟨RefreshResult.lawful, by decide⟩, by simp [RefreshResult.shape],
      by simp [RefreshResult.shape]⟩,
    ⟨⟨ActResult.lawful, by decide⟩, by simp [ActResult.shape], by simp [ActResult.shape, hempty]⟩,
    ⟨⟨PoolStatus.lawful, by decide⟩, by simp [PoolStatus.shape],
      by simp [PoolStatus.shape, hzero]⟩,
    ⟨⟨RuntimeStatus.lawful, by decide⟩, by simp [RuntimeStatus.shape],
      by simp [RuntimeStatus.shape, hzero, hnone]⟩,
    ⟨⟨HandshakeResult.lawful, by decide⟩, by simp [HandshakeResult.shape],
      by simp [HandshakeResult.shape]⟩,
    ⟨⟨MapInfo.lawful, by decide⟩, by simp [MapInfo.shape], by simp [MapInfo.shape]⟩,
    ⟨⟨QueryResult.lawful, by decide⟩, by simp [QueryResult.shape], by simp [QueryResult.shape]⟩,
    ⟨⟨PerceiveResult.lawful, by decide⟩, by simp [PerceiveResult.shape],
      by simp [PerceiveResult.shape, hzero, hempty]⟩,
    ⟨⟨AuthResult.lawful, by decide⟩, by simp [AuthResult.shape],
      by simp [AuthResult.shape, hnone]⟩⟩

/-- The outcome of a result does not depend on which defaults are written out and which members
that no field knows are added: it is the same record in all cases, or a failure in all of them. A
result without content is read as one without members, so it has all defaults. -/
theorem missing_members_are_defaults :
    ∀ s ∈ resultShapes, ∀ method : Method,
      (∀ a b, Relation.EqvGen s.2.Addition a b → ∀ r,
        s.2.readResult method (.object a) = .ok r ↔ s.2.readResult method (.object b) = .ok r) ∧
      (∀ f ∈ s.2.fields,
        f.codec.decode (f.codec.encode (f.get s.2.blank)) = .ok (f.get s.2.blank)) ∧
      s.2.readResult method .null = s.2.readResult method (.object []) ∧
      s.2.readResult method .null = .ok s.2.blank := by
  intro s hs method
  have h := lenient_resultShapes s hs
  refine ⟨fun a b hab r => ?_, h.readsBack, rfl, Shape.readResult_eq_ok.2 h.decode_empty⟩
  rw [Shape.readResult_eq_ok, Shape.readResult_eq_ok]
  exact h.decode_of_eqvGen hab

/-- A sparse status under an older name, the same with a default and a foreign member, and a status
that is refused for giving one field twice. -/
theorem missing_members_are_defaults_status :
    let sparse : List (String × Json) := [("maps_cached", .int 3)]
    let filled : List (String × Json) :=
      [("maps_cached", .int 3), ("region", .null), ("version", .text "unknown")]
    Relation.EqvGen RuntimeStatus.shape.Addition sparse filled ∧
      (∃ r, RuntimeStatus.shape.readResult .status (.object sparse) = .ok r ∧
        RuntimeStatus.shape.readResult .status (.object filled) = .ok r ∧ r.cachedMaps = 3) ∧
      ∀ r, RuntimeStatus.shape.readResult .status (.object (("cached_maps", .int 2) :: sparse)) ≠
        .ok r := by
  intro sparse filled
  have hforeign : RuntimeStatus.shape.Addition sparse
      [("maps_cached", .int 3), ("region", .null)] := .unknown sparse [] (by decide)
  have hversion : RuntimeStatus.shape.Addition [("maps_cached", .int 3), ("region", .null)]
      filled :=
    .default [("maps_cached", .int 3), ("region", .null)] [] List.mem_cons_self (.inl rfl)
      (by decide) rfl
  have hfilled := (Relation.EqvGen.rel _ _ hforeign).trans _ _ _ (.rel _ _ hversion)
  have hstatus : (⟨_, RuntimeStatus.shape⟩ : Σ ρ : Type, Shape ρ) ∈ resultShapes := by
    simp [resultShapes]
  obtain ⟨hsame, -⟩ := missing_members_are_defaults _ hstatus .status
  have hsparse : RuntimeStatus.shape.readResult .status (.object sparse) =
      .ok ⟨"unknown", 0.0, 0, 3, 0.0, none⟩ := rfl
  refine ⟨hfilled, ⟨_, hsparse, (hsame _ _ hfilled _).1 hsparse, rfl⟩, fun r h => ?_⟩
  cases h

end SiteAtlas
