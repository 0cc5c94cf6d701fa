import Mathlib.Data.List.Nodup
import Mathlib.Data.List.Pairwise
import SiteAtlas.Proofs.Codec.Record

/-!
# Records field by field

What is read for a field depends on the members that the field knows and on no others: without one
the field stays as it is, one gives it its value, and two of them are refused. In a list the items
belong to the fields in their order. A record is read if all its fields are.
-/
namespace SiteAtlas

variable {ρ : Type}

namespace Field

def valuesIn (f : Field ρ) (members : List (String × Json)) : List Json :=
  (members.filter fun m => f.Known m.1).map Prod.snd

/-- What values do to a field: `seen` says whether it was read before, `old` is what it holds. -/
def Gives (f : Field ρ) : List Json → (seen : Prop) → (old new : f.α) → Prop
  | [], seen, old, new => (f.presence = .required → seen) ∧ new = old
  | j :: js, seen, _, new => ¬seen ∧ ∃ v, f.codec.decode j = .ok v ∧ f.Gives js True v new

theorem valuesIn_cons_of_known {f : Field ρ} {m : String × Json} (h : f.Known m.1)
    (ms : List (String × Json)) : f.valuesIn (m :: ms) = m.2 :: f.valuesIn ms := by
  simp [valuesIn, h]

theorem valuesIn_cons_of_not_known {f : Field ρ} {m : String × Json} (h : ¬f.Known m.1)
    (ms : List (String × Json)) : f.valuesIn (m :: ms) = f.valuesIn ms := by
  simp [valuesIn, h]

theorem valuesIn_append (f : Field ρ) (ms ns : List (String × Json)) :
    f.valuesIn (ms ++ ns) = f.valuesIn ms ++ f.valuesIn ns := by
  simp [valuesIn]

theorem valuesIn_eq_nil_iff {f : Field ρ} {ms : List (String × Json)} :
    f.valuesIn ms = [] ↔ ∀ m ∈ ms, ¬f.Known m.1 := by
  simp [valuesIn]

theorem mem_valuesIn {f : Field ρ} {ms : List (String × Json)} {j : Json} :
    j ∈ f.valuesIn ms ↔ ∃ key, (key, j) ∈ ms ∧ f.Known key := by
  simp [valuesIn]

theorem gives_single {f : Field ρ} {j : Json} {old new : f.α} :
    f.Gives [j] False old new ↔ f.codec.decode j = .ok new := by
  simp [Gives]

/-- A field that was read before takes no further value. -/
theorem Gives.eq_nil {f : Field ρ} {js : List Json} {old new : f.α}
    (h : f.Gives js True old new) : js = [] := by
  cases js with
  | nil => rfl
  | cons j js => exact absurd trivial h.1

/-- A field that takes a value takes no other one. -/
theorem Gives.eq_singleton {f : Field ρ} {js : List Json} {seen : Prop} {old new : f.α}
    (h : f.Gives js seen old new) {j : Json} (hj : j ∈ js) : js = [j] := by
  cases js with
  | nil => cases hj
  | cons k js =>
    obtain ⟨-, v, -, hrest⟩ := h
    obtain rfl := hrest.eq_nil
    rw [List.mem_singleton.1 hj]

/-- All values of a field that is read give what it holds in the end; there is one at most. -/
theorem Gives.decode_of_mem {f : Field ρ} {js : List Json} {seen : Prop} {old new : f.α}
    (h : f.Gives js seen old new) {j : Json} (hj : j ∈ js) : f.codec.decode j = .ok new := by
  cases js with
  | nil => cases hj
  | cons k js =>
    obtain ⟨-, v, hv, hrest⟩ := h
    obtain rfl := hrest.eq_nil
    rw [List.mem_singleton.1 hj, hv, hrest.2]

theorem head?_valuesIn {f : Field ρ} (plain : f.aliases = []) (members : List (String × Json)) :
    (f.valuesIn members).head? = (Json.object members).member? f.name := by
  have hknown (key : String) : f.Known key ↔ f.name = key := by simp [Known, plain, eq_comm]
  induction members with
  | nil => rfl
  | cons m rest ih =>
    by_cases h : f.name = m.1
    · rw [valuesIn_cons_of_known ((hknown _).2 h), List.head?_cons, Json.member?, h,
        entryAt?_cons_self]
    · have hne : compare f.name m.1 ≠ .eq := fun he => h (Std.LawfulEqCmp.eq_of_compare he)
      rw [valuesIn_cons_of_not_known (mt (hknown _).1 h), ih, Json.member?, Json.member?, entryAt?,
        if_neg hne]

/-- If keys occur once, the field takes the member of its name. -/
theorem valuesIn_eq_toList {f : Field ρ} (plain : f.aliases = []) {members : List (String × Json)}
    (distinct : members.Pairwise fun m n => m.1 ≠ n.1) :
    f.valuesIn members = ((Json.object members).member? f.name).toList := by
  rw [← head?_valuesIn plain]
  have hkeys : ∀ m ∈ members.filter (fun m => f.Known m.1), m.1 = f.name := by
    intro m hm
    simpa [Known, plain] using (List.mem_filter.1 hm).2
  have hfiltered := distinct.filter fun m => decide (f.Known m.1)
  rw [valuesIn]
  generalize members.filter (fun m => f.Known m.1) = known at hkeys hfiltered ⊢
  match known with
  | [] => rfl
  | [m] => rfl
  | m :: n :: rest =>
    have hne := List.rel_of_pairwise_cons hfiltered List.mem_cons_self
    exact absurd ((hkeys m (by simp)).trans (hkeys n (by simp)).symm) hne

theorem gives_toList_iff {f : Field ρ} {o : Option Json} {old new : f.α} :
    f.Gives o.toList False old new ↔
      match o with
      | none => f.presence ≠ .required ∧ new = old
      | some j => f.codec.decode j = .ok new := by
  cases o <;> simp [Gives]

/-- A field that is read holds what the member of its name gives, or what it held before. -/
theorem Gives.of_member {f : Field ρ} (plain : f.aliases = []) {members : List (String × Json)}
    {old new : f.α} (h : f.Gives (f.valuesIn members) False old new) :
    match (Json.object members).member? f.name with
    | none => new = old
    | some j => f.codec.decode j = .ok new := by
  rw [← head?_valuesIn plain]
  generalize f.valuesIn members = js at h ⊢
  cases js with
  | nil => exact h.2
  | cons j js => exact h.decode_of_mem List.mem_cons_self

end Field

namespace Shape

variable {s : Shape ρ}

def keys (s : Shape ρ) : List String := s.fields.flatMap fun f => f.name :: f.aliases

/-- A lawful shape that gives no name twice, neither to a field nor as an alias. -/
structure Regular (s : Shape ρ) : Prop extends s.Lawful where
  distinct : s.keys.Nodup

/-- A name belongs to one field only. -/
theorem Regular.field?_eq_some_iff (h : s.Regular) {key : String} {f : Field ρ} :
    s.field? key = some f ↔ f ∈ s.fields ∧ f.Known key := by
  have hdisjoint := (List.nodup_flatMap.1 h.distinct).2
  have : Std.Symm (Function.onFun List.Disjoint fun f : Field ρ => f.name :: f.aliases) :=
    ⟨fun _ _ h _ hf hg => h hg hf⟩
  constructor
  · intro hfound
    exact ⟨List.mem_of_find?_eq_some hfound, by simpa using List.find?_some hfound⟩
  · rintro ⟨hf, hknown⟩
    cases hfound : s.field? key with
    | none =>
      rw [field?, List.find?_eq_none] at hfound
      exact absurd (decide_eq_true hknown) (hfound f hf)
    | some g =>
      have hg : g ∈ s.fields := List.mem_of_find?_eq_some hfound
      have hgknown : g.Known key := by simpa using List.find?_some hfound
      refine congrArg some (by_contra fun hne => ?_)
      have hfg := hdisjoint.forall hg hf hne
      exact hfg (List.mem_cons.2 hgknown) (List.mem_cons.2 hknown)

theorem field?_eq_none_iff {key : String} :
    s.field? key = none ↔ ∀ f ∈ s.fields, ¬f.Known key := by
  simp [field?]

theorem Regular.not_known {f g : Field ρ} (h : s.Regular) (hf : f ∈ s.fields) (hg : g ∈ s.fields)
    (hne : g.name ≠ f.name) {key : String} (hknown : f.Known key) : ¬g.Known key := by
  intro hgknown
  have hfield := h.field?_eq_some_iff.2 ⟨hg, hgknown⟩
  rw [h.field?_eq_some_iff.2 ⟨hf, hknown⟩] at hfield
  exact hne (congrArg Field.name (Option.some.inj hfield)).symm

/-- A member that is read counts for its own field only; the other fields are as before. -/
theorem Regular.gives_rest_iff (h : s.Regular) {key : String} {f : Field ρ}
    (hfield : s.field? key = some f) {seen : List String} (hseen : f.name ∉ seen) {j : Json}
    {v : f.α} (hj : f.codec.decode j = .ok v) {rest : List (String × Json)} {acc : ρ}
    {g : Field ρ} (hg : g ∈ s.fields) {new : g.α} :
    g.Gives (g.valuesIn rest) (g.name ∈ f.name :: seen) (g.get (f.put v acc)) new ↔
      g.Gives (g.valuesIn ((key, j) :: rest)) (g.name ∈ seen) (g.get acc) new := by
  obtain ⟨hf, hknown⟩ := h.field?_eq_some_iff.1 hfield
  by_cases hname : g.name = f.name
  · obtain rfl := h.eq_of_name hg hf hname
    rw [Field.valuesIn_cons_of_known hknown, h.get_put g hg]
    simp [Field.Gives, hseen, hj]
  · have hother : ¬g.Known key := h.not_known hf hg hname hknown
    rw [Field.valuesIn_cons_of_not_known hother, h.get_put_of_ne f hf g hg hname]
    simp [hname]

/-- A record is read from members if each of its fields is read from those that it knows. -/
theorem Regular.readMembers_eq_ok (h : s.Regular)
    {members : List (String × Json)} {seen : List String} {acc r : ρ} :
    s.readMembers members seen acc = .ok r ↔
      ∀ f ∈ s.fields, f.Gives (f.valuesIn members) (f.name ∈ seen) (f.get acc) (f.get r) := by
  induction members generalizing seen acc with
  | nil =>
    have hmissing : s.missing? seen = none ↔
        ∀ f ∈ s.fields, f.presence = .required → f.name ∈ seen := by
      simp [missing?]
    have hsame : acc = r ↔ ∀ f ∈ s.fields, f.get r = f.get acc :=
      ⟨fun heq _ _ => heq ▸ rfl, fun heq => (h.ext acc r heq).symm⟩
    have hread : s.readMembers [] seen acc = .ok r ↔ s.missing? seen = none ∧ acc = r := by
      rw [readMembers]
      cases s.missing? seen <;> simp
    rw [hread, hmissing, hsame]
    exact ⟨fun hall f hf => ⟨hall.1 f hf, hall.2 f hf⟩,
      fun hall => ⟨fun f hf => (hall f hf).1, fun f hf => (hall f hf).2⟩⟩
  | cons m rest ih =>
    obtain ⟨key, j⟩ := m
    cases hfield : s.field? key with
    | none =>
      simp only [readMembers, hfield, ih]
      refine forall₂_congr fun f hf => ?_
      rw [Field.valuesIn_cons_of_not_known (field?_eq_none_iff.1 hfield f hf)]
    | some f =>
      obtain ⟨hf, hknown⟩ := h.field?_eq_some_iff.1 hfield
      have hvalues : f.valuesIn ((key, j) :: rest) = j :: f.valuesIn rest :=
        Field.valuesIn_cons_of_known hknown rest
      -- refused if the field was read before or its value is not accepted; and so is the right side
      by_cases hseen : f.name ∈ seen
      · simp only [readMembers, hfield, if_pos hseen, reduceCtorEq, false_iff]
        intro hall
        have hgives := hall f hf
        rw [hvalues] at hgives
        exact hgives.1 hseen
      cases hj : f.codec.decode j with
      | error fault =>
        simp only [readMembers, hfield, if_neg hseen, Field.absorb, hj]
        refine iff_of_false (by simp [Except.map, bind, Except.bind]) fun hall => ?_
        have hgives := hall f hf
        rw [hvalues] at hgives
        obtain ⟨-, v, hv, -⟩ := hgives
        rw [hj] at hv
        cases hv
      | ok v =>
        simp only [readMembers, hfield, if_neg hseen, Field.absorb, hj, Except.map, bind,
          Except.bind, ih]
        exact forall₂_congr fun g hg => h.gives_rest_iff hfield hseen hj hg

/-- A record is read from an object if each of its fields is. -/
theorem Regular.decode_object_eq_ok (h : s.Regular) {members : List (String × Json)} {r : ρ} :
    s.decode (.object members) = .ok r ↔
      ∀ f ∈ s.fields, f.Gives (f.valuesIn members) False (f.get s.blank) (f.get r) := by
  rw [decode, h.readMembers_eq_ok]
  simp

/-- A member of a record that is read may be given another value. It counts for its own field only. -/
theorem Regular.decode_replace (h : s.Regular) {front rest : List (String × Json)} {key : String}
    {f : Field ρ} (hf : f ∈ s.fields) (hknown : f.Known key) {j j' : Json} {v : f.α} {r : ρ}
    (hread : s.decode (.object (front ++ (key, j) :: rest)) = .ok r)
    (hj' : f.codec.decode j' = .ok v) :
    s.decode (.object (front ++ (key, j') :: rest)) = .ok (f.put v r) := by
  rw [h.decode_object_eq_ok] at hread ⊢
  intro g hg
  have hgives := hread g hg
  rw [Field.valuesIn_append] at hgives ⊢
  by_cases hname : g.name = f.name
  · obtain rfl := h.eq_of_name hg hf hname
    rw [Field.valuesIn_cons_of_known hknown] at hgives ⊢
    have hj : j ∈ g.valuesIn front ++ j :: g.valuesIn rest := by simp
    have hone := congrArg List.length (hgives.eq_singleton hj)
    simp only [List.length_append, List.length_cons, List.length_nil] at hone
    have hfront : g.valuesIn front = [] := List.length_eq_zero_iff.1 (by omega)
    have hrest : g.valuesIn rest = [] := List.length_eq_zero_iff.1 (by omega)
    rw [hfront, hrest, List.nil_append, Field.gives_single, h.get_put g hg]
    exact hj'
  · have hother : ¬g.Known key := h.not_known hf hg hname hknown
    rw [Field.valuesIn_cons_of_not_known hother] at hgives ⊢
    rwa [h.get_put_of_ne f hf g hg hname]

/-- Items that are read for fields give these fields, and the others stay as they are. -/
theorem Lawful.decode_zip (h : s.Lawful) {total index : Nat} {fields : List (Field ρ)}
    (part : ∀ f ∈ fields, f ∈ s.fields) (distinct : fields.Pairwise fun f g => f.name ≠ g.name)
    {items : List Json} {acc r : ρ} (hread : s.readItems total index fields items acc = .ok r) :
    (∀ e ∈ fields.zip items, e.1.codec.decode e.2 = .ok (e.1.get r)) ∧
      ∀ g ∈ s.fields, (∀ f ∈ fields, g.name ≠ f.name) → g.get r = g.get acc := by
  induction fields generalizing index items acc with
  | nil =>
    cases items with
    | nil =>
      cases hread
      exact ⟨fun e he => by simp at he, fun g _ _ => rfl⟩
    | cons => cases hread
  | cons f fields ih =>
    obtain ⟨hne, hdistinct⟩ := List.pairwise_cons.1 distinct
    have hpart : ∀ g ∈ fields, g ∈ s.fields := fun g hg => part g (List.mem_cons_of_mem _ hg)
    have hf : f ∈ s.fields := part f List.mem_cons_self
    cases items with
    | nil =>
      rw [readItems] at hread
      split at hread
      · obtain ⟨-, hout⟩ := ih hpart hdistinct hread
        refine ⟨fun e he => by simp at he, fun g hg hothers => hout g hg fun k hk => ?_⟩
        exact hothers k (List.mem_cons_of_mem _ hk)
      · cases hread
    | cons j items =>
      rw [readItems] at hread
      obtain ⟨_, habsorb, hrest⟩ := bind_eq_ok.1 hread
      obtain ⟨v, hv, rfl⟩ := map_eq_ok.1 habsorb
      obtain ⟨hin, hout⟩ := ih hpart hdistinct hrest
      refine ⟨fun e he => ?_, fun g hg hothers => ?_⟩
      · rcases List.mem_cons.1 he with rfl | he
        · rw [hout f hf hne, h.get_put f hf, hv]
        · exact hin e he
      · rw [hout g hg fun k hk => hothers k (List.mem_cons_of_mem _ hk),
          h.get_put_of_ne f hf g hg (hothers f List.mem_cons_self)]

theorem readItems_nil_eq_ok {total index : Nat} {fields : List (Field ρ)} {acc r : ρ}
    (hread : s.readItems total index fields [] acc = .ok r) : r = acc := by
  induction fields generalizing index with
  | nil =>
    cases hread
    rfl
  | cons f fields ih =>
    rw [readItems] at hread
    split at hread
    · exact ih hread
    · cases hread

/-- Each field holds what the item at its place gives, or what it held before. -/
theorem Lawful.decode_getElem? (h : s.Lawful) {total index : Nat} {fields : List (Field ρ)}
    (part : ∀ f ∈ fields, f ∈ s.fields) (distinct : fields.Pairwise fun f g => f.name ≠ g.name)
    {items : List Json} {acc r : ρ} (hread : s.readItems total index fields items acc = .ok r)
    {i : Nat} {f : Field ρ} (hf : fields[i]? = some f) :
    match items[i]? with
    | none => f.get r = f.get acc
    | some j => f.codec.decode j = .ok (f.get r) := by
  induction fields generalizing index items acc i with
  | nil => cases hf
  | cons g fields ih =>
    cases items with
    | nil =>
      rw [readItems_nil_eq_ok hread]
      rfl
    | cons j items =>
      have hgives := (h.decode_zip part distinct hread).1
      obtain ⟨hne, hdistinct⟩ := List.pairwise_cons.1 distinct
      rw [readItems] at hread
      obtain ⟨_, habsorb, hrest⟩ := bind_eq_ok.1 hread
      obtain ⟨v, -, rfl⟩ := map_eq_ok.1 habsorb
      cases i with
      | zero =>
        cases hf
        exact hgives (f, j) List.mem_cons_self
      | succ i =>
        have hmem : f ∈ fields := List.mem_of_getElem? hf
        have hother := h.get_put_of_ne g (part g List.mem_cons_self) f
          (part f (List.mem_cons_of_mem _ hmem)) (hne f hmem).symm v acc
        have hlater := ih (fun k hk => part k (List.mem_cons_of_mem _ hk)) hdistinct hrest hf
        rw [List.getElem?_cons_succ]
        rwa [hother] at hlater

theorem Regular.pairwise_name_ne (h : s.Regular) :
    s.fields.Pairwise fun f g => f.name ≠ g.name := by
  refine (List.nodup_flatMap.1 h.distinct).2.imp fun {f g} hdisjoint hname => ?_
  exact hdisjoint List.mem_cons_self (hname ▸ List.mem_cons_self)

/-- The fields of which a JSON value has something, and what it has: in an object by name, in a list
by position. -/
def slots (s : Shape ρ) : Json → List (Field ρ × Json)
  | .object members => s.fields.flatMap fun f => (f.valuesIn members).map (f, ·)
  | .list items => s.fields.zip items
  | _ => []

/-- A record holds in each field what is read from the value for it. -/
theorem Regular.decode_slots (h : s.Regular) {j : Json} {r : ρ}
    (hread : s.decode j = .ok r) {e : Field ρ × Json} (he : e ∈ s.slots j) :
    e.1.codec.decode e.2 = .ok (e.1.get r) := by
  cases j with
  | object members =>
    obtain ⟨f, hf, he⟩ := List.mem_flatMap.1 he
    obtain ⟨v, hv, rfl⟩ := List.mem_map.1 he
    exact (h.decode_object_eq_ok.1 hread f hf).decode_of_mem hv
  | list items =>
    exact (h.decode_zip (fun _ => id) h.pairwise_name_ne hread).1 e he
  | _ => cases hread

end Shape

end SiteAtlas
