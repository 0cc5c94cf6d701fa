import SiteAtlas.Codec.Shape
import SiteAtlas.Proofs.Codec.ReadBack

/-!
# Records read back

A record is written with all its fields, sorted by name. It is read back if its fields are, provided
that the name of a field leads back to the field and that the fields are independent parts that make
up the record.
-/
namespace SiteAtlas.Shape

variable {ρ : Type}

/-- A shape whose fields are told apart by their names and make up the record. -/
structure Lawful (s : Shape ρ) : Prop where
  /-- the name under which a field is written is read as this field -/
  known : ∀ f ∈ s.fields, s.field? f.name = some f
  get_put : ∀ f ∈ s.fields, ∀ v r, f.get (f.put v r) = v
  get_put_of_ne : ∀ f ∈ s.fields, ∀ g ∈ s.fields, g.name ≠ f.name →
    ∀ v r, g.get (f.put v r) = g.get r
  ext : ∀ r u, (∀ f ∈ s.fields, f.get u = f.get r) → u = r

theorem Lawful.eq_of_name {s : Shape ρ} (h : s.Lawful) {f g : Field ρ} (hf : f ∈ s.fields)
    (hg : g ∈ s.fields) (hname : f.name = g.name) : f = g := by
  have hknown := h.known f hf
  rw [hname, h.known g hg] at hknown
  exact (Option.some.inj hknown).symm

/-- Members that were written for fields of a record give these fields, in whatever order they
stand; all other fields stay as they are. -/
theorem Lawful.readMembers_written {s : Shape ρ} (h : s.Lawful) {r : ρ}
    {members : List (String × Json)}
    (written : ∀ m ∈ members, ∃ f ∈ s.fields, f.codec.ReadsBack (f.get r) ∧ m = f.member r)
    (distinct : members.Pairwise fun m n => m.1 ≠ n.1) {seen : List String}
    (fresh : ∀ m ∈ members, m.1 ∉ seen) (acc : ρ) :
    ∃ u, s.readMembers members seen acc =
        s.readMembers [] ((members.map Prod.fst).reverse ++ seen) u ∧
      (∀ f ∈ s.fields, f.name ∈ members.map Prod.fst → f.get u = f.get r) ∧
      ∀ f ∈ s.fields, f.name ∉ members.map Prod.fst → f.get u = f.get acc := by
  induction members generalizing seen acc with
  | nil => exact ⟨acc, rfl, fun f _ hf => by simp at hf, fun f _ _ => rfl⟩
  | cons m rest ih =>
    obtain ⟨f, hf, hback, rfl⟩ := written m List.mem_cons_self
    obtain ⟨hne, hdistinct⟩ := List.pairwise_cons.1 distinct
    have hfresh : ∀ m ∈ rest, m.1 ∉ f.name :: seen := by
      intro m hm hseen
      rcases List.mem_cons.1 hseen with hname | hseen
      · exact hne m hm hname.symm
      · exact fresh m (List.mem_cons_of_mem _ hm) hseen
    obtain ⟨u, hread, hin, hout⟩ := ih (fun m hm => written m (List.mem_cons_of_mem _ hm))
      hdistinct hfresh (f.put (f.get r) acc)
    rw [Codec.ReadsBack] at hback
    refine ⟨u, ?_, fun g hg hname => ?_, fun g hg hname => ?_⟩
    · have hnew : f.name ∉ seen := fresh _ List.mem_cons_self
      simp only [Field.member, readMembers, h.known f hf, if_neg hnew, Field.absorb, hback]
      rw [List.map_cons, List.reverse_cons, List.append_assoc]
      exact hread
    · by_cases hrest : g.name ∈ rest.map Prod.fst
      · exact hin g hg hrest
      · -- the field read just now: no later member has its name, so its value stays
        have hgf : g.name = f.name := by
          rcases List.mem_cons.1 hname with hgf | hname
          · exact hgf
          · exact absurd hname hrest
        obtain rfl := h.eq_of_name hg hf hgf
        rw [hout g hg hrest, h.get_put g hg]
    · obtain ⟨hgf, hrest⟩ := not_or.1 (mt List.mem_cons.2 hname)
      rw [hout g hg hrest, h.get_put_of_ne f hf g hg hgf]

def membersBut (s : Shape ρ) (leftOut : String → Bool) (r : ρ) : List (String × Json) :=
  s.fields.flatMap fun f => if leftOut f.name then [] else [f.member r]

theorem mem_membersBut {s : Shape ρ} {leftOut : String → Bool} {r : ρ} {m : String × Json} :
    m ∈ s.membersBut leftOut r ↔ ∃ f ∈ s.fields, leftOut f.name = false ∧ m = f.member r := by
  rw [membersBut, List.mem_flatMap]
  refine exists_congr fun f => and_congr_right fun _ => ?_
  cases leftOut f.name <;> simp

theorem key_mem_membersBut {s : Shape ρ} {leftOut : String → Bool} {r : ρ} {key : String} :
    key ∈ (sortEntries (s.membersBut leftOut r)).map Prod.fst ↔
      ∃ f ∈ s.fields, leftOut f.name = false ∧ key = f.name := by
  rw [List.mem_map]
  constructor
  · rintro ⟨m, hm, rfl⟩
    obtain ⟨f, hf, hout, rfl⟩ := mem_membersBut.1 (mem_of_mem_sortEntries hm)
    exact ⟨f, hf, hout, rfl⟩
  · rintro ⟨f, hf, hout, rfl⟩
    exact exists_mem_sortEntries (mem_membersBut.2 ⟨f, hf, hout, rfl⟩)

/-- A field has its member unless it is left out. -/
theorem member?_membersBut {s : Shape ρ} (h : s.fields.Pairwise fun f g => f.name ≠ g.name)
    (leftOut : String → Bool) (r : ρ) {f : Field ρ} (hf : f ∈ s.fields) :
    (Json.ofMembers (s.membersBut leftOut r)).member? f.name =
      if leftOut f.name then none else some (f.codec.encode (f.get r)) := by
  have hdistinct : (s.membersBut leftOut r).Pairwise fun m n => m.1 ≠ n.1 := by
    refine List.pairwise_flatMap.2 ⟨fun f _ => ?_, h.imp fun {f g} hne m hm n hn => ?_⟩
    · split <;> simp
    · have hname {f : Field ρ} {m : String × Json}
          (hm : m ∈ if leftOut f.name then [] else [f.member r]) : m.1 = f.name := by
        split at hm
        · cases hm
        · rw [List.mem_singleton.1 hm, Field.member]
      rw [hname hm, hname hn]
      exact hne
  cases hout : leftOut f.name with
  | false => exact (Json.member?_ofMembers hdistinct).2 (mem_membersBut.2 ⟨f, hf, hout, rfl⟩)
  | true =>
    refine Option.eq_none_iff_forall_ne_some.2 fun j hj => ?_
    obtain ⟨g, -, hkept, hm⟩ := mem_membersBut.1 ((Json.member?_ofMembers hdistinct).1 hj)
    have hname : f.name = g.name := (Prod.ext_iff.1 hm).1
    rw [hname, hkept] at hout
    cases hout

/-- A record is read back if its fields are; fields that are left out must be blank. -/
theorem Lawful.decode_membersBut {s : Shape ρ} (h : s.Lawful) {r : ρ} {leftOut : String → Bool}
    (back : ∀ f ∈ s.fields, f.codec.ReadsBack (f.get r))
    (blank : ∀ f ∈ s.fields, leftOut f.name = true →
      f.presence ≠ .required ∧ f.get r = f.get s.blank) :
    s.decode (.ofMembers (s.membersBut leftOut r)) = .ok r := by
  have hwritten : ∀ m ∈ sortEntries (s.membersBut leftOut r),
      ∃ f ∈ s.fields, f.codec.ReadsBack (f.get r) ∧ m = f.member r := by
    intro m hm
    obtain ⟨f, hf, -, rfl⟩ := mem_membersBut.1 (mem_of_mem_sortEntries hm)
    exact ⟨f, hf, back f hf, rfl⟩
  have hkey : ∀ f ∈ s.fields, leftOut f.name = false →
      f.name ∈ (sortEntries (s.membersBut leftOut r)).map Prod.fst := fun f hf hout =>
    key_mem_membersBut.2 ⟨f, hf, hout, rfl⟩
  obtain ⟨u, hread, hin, hout⟩ := h.readMembers_written hwritten (pairwise_ne_sortEntries _)
    (fun _ _ => List.not_mem_nil) s.blank
  have hmissing :
      s.missing? (((sortEntries (s.membersBut leftOut r)).map Prod.fst).reverse ++ []) = none := by
    rw [missing?, List.find?_eq_none]
    intro f hf hmissing
    rw [decide_eq_true_eq, List.append_nil, List.mem_reverse] at hmissing
    cases hleft : leftOut f.name with
    | false => exact hmissing.2 (hkey f hf hleft)
    | true => exact (blank f hf hleft).1 hmissing.1
  have hur : u = r := by
    refine h.ext r u fun f hf => ?_
    by_cases hname : f.name ∈ (sortEntries (s.membersBut leftOut r)).map Prod.fst
    · exact hin f hf hname
    · have hleft : leftOut f.name = true :=
        Bool.of_not_eq_false fun hkept => hname (hkey f hf hkept)
      rw [hout f hf hname, (blank f hf hleft).2]
  rw [readMembers, hmissing] at hread
  exact hread.trans (congrArg Except.ok hur)

/-- A record is read back if its fields are. -/
theorem Lawful.readsBack {s : Shape ρ} (h : s.Lawful) {r : ρ}
    (back : ∀ f ∈ s.fields, f.codec.ReadsBack (f.get r)) : s.codec.ReadsBack r := by
  have hall : s.membersBut (fun _ => false) r = s.fields.map (·.member r) := by
    simp [membersBut, List.map_eq_flatMap]
  have hread : s.decode (.ofMembers (s.membersBut (fun _ => false) r)) = .ok r :=
    h.decode_membersBut back fun _ _ hout => absurd hout Bool.false_ne_true
  rwa [hall] at hread

end SiteAtlas.Shape
