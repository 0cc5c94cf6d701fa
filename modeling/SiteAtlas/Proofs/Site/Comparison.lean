import SiteAtlas.Proofs.Site.PageSet
import SiteAtlas.Site.Compare

/-!
# Comparisons of sites that may share their names

The tables of a comparison are filled site by site, so what they hold under a name belongs to the
place where the name is listed last. The similarities do not depend on how names are repeated
otherwise. The page types that only one site has do: there the others are all other places, those of
the same name too.
-/
namespace SiteAtlas

/-- A share of a whole, rounded to three places. -/
def roundedShare (part whole : Nat) : Float :=
  (part.toFloat / whole.toFloat * 1000.0).round / 1000.0

theorem jaccard_eq (s t : PageSet) : jaccard s t =
    if s.members = ∅ ∧ t.members = ∅ then 0.0
    else roundedShare (s.members ∩ t.members).card (s.members ∪ t.members).card := by
  rw [jaccard, PageSet.size_eq_card, PageSet.size_eq_card, PageSet.members_union,
    PageSet.members_inter]
  simp only [Finset.card_eq_zero, Finset.union_eq_empty]
  rfl

theorem jaccard_comm (s t : PageSet) : jaccard s t = jaccard t s := by
  rw [jaccard_eq, jaccard_eq, Finset.inter_comm, Finset.union_comm]
  simp only [and_comm]

namespace Listing

/-- The last site with a name, between what is listed before and after it. -/
structure LastListed (sites : List Listing) (name : String) (before : List Listing)
    (types : PageSet) (after : List Listing) : Prop where
  eq : sites = before ++ (name, types) :: after
  last : ∀ site ∈ after, site.1 ≠ name

variable {sites : List Listing} {name : String} {before after : List Listing} {types : PageSet}

theorem exists_lastListed (h : name ∈ sites.map Prod.fst) :
    ∃ before types after, LastListed sites name before types after := by
  induction sites with
  | nil => cases h
  | cons site sites ih =>
    by_cases hrest : name ∈ sites.map Prod.fst
    · obtain ⟨before, types, after, hlast⟩ := ih hrest
      exact ⟨site :: before, types, after, congrArg (site :: ·) hlast.eq, hlast.last⟩
    · obtain rfl : name = site.1 := (List.mem_cons.1 h).resolve_right hrest
      exact ⟨[], site.2, sites, rfl, fun other hother heq =>
        hrest (heq ▸ List.mem_map_of_mem hother)⟩

namespace LastListed

theorem mem_iff (h : LastListed sites name before types after) {site : Listing} :
    site ∈ sites ↔ site = (name, types) ∨ site ∈ before ++ after := by
  rw [h.eq, List.mem_append, List.mem_cons, List.mem_append, or_left_comm]

theorem mem_before (h : LastListed sites name before types after) {site : Listing}
    (hsite : site ∈ before ++ after) (hname : site.1 = name) : site ∈ before :=
  (List.mem_append.1 hsite).resolve_right fun hafter => h.last site hafter hname

theorem getElem? (h : LastListed sites name before types after) :
    sites[before.length]? = some (name, types) := by
  rw [h.eq]
  simp

/-- Different names stand at different places. -/
theorem length_ne (h : LastListed sites name before types after) {other : String}
    {before' after' : List Listing} {types' : PageSet}
    (h' : LastListed sites other before' types' after') (hne : name ≠ other) :
    before'.length ≠ before.length := by
  intro hlength
  have hget := h'.getElem?
  rw [hlength, h.getElem?] at hget
  exact hne (congrArg Prod.fst (Option.some.inj hget))

theorem eraseIdx (h : LastListed sites name before types after) :
    sites.eraseIdx before.length = before ++ after := by
  rw [h.eq, List.eraseIdx_append_of_length_le (Nat.le_refl _), Nat.sub_self]
  rfl

end LastListed

/-- The table that holds for each name what is made of the site listed last with it. -/
def tabulate {α : Type} (sites : List Listing) (f : Listing → Nat → α) : Table String α :=
  .ofList (sites.zipIdx.map fun (site, i) => (site.1, f site i))

theorem unique_compare (sites : List Listing) : (compare sites).unique =
    tabulate sites fun site i => (site.2.diff (others sites i)).toList := rfl

theorem similarities_compare (sites : List Listing) : (compare sites).similarities =
    tabulate sites fun site i =>
      tabulate sites fun other j => if j = i then 1.0 else jaccard site.2 other.2 := rfl

variable {α : Type} {f : Listing → Nat → α}

theorem get?_tabulate (h : LastListed sites name before types after) :
    (tabulate sites f).get? name = some (f (name, types) before.length) := by
  rw [tabulate, h.eq, List.zipIdx_append, List.map_append, List.zipIdx_cons, List.map_cons,
    Nat.zero_add]
  refine Table.get?_ofList_eq_some.2 ⟨_, _, rfl, fun e he => ?_⟩
  obtain ⟨⟨site, i⟩, hsite, rfl⟩ := List.mem_map.1 he
  exact h.last site (List.fst_mem_of_mem_zipIdx hsite)

theorem isSome_get?_tabulate_iff : ((tabulate sites f).get? name).isSome ↔
    name ∈ sites.map Prod.fst := by
  constructor
  · intro h
    obtain ⟨e, he, rfl⟩ := Table.isSome_get?_ofList_iff.1 h
    obtain ⟨⟨site, i⟩, hsite, rfl⟩ := List.mem_map.1 he
    exact List.mem_map_of_mem (List.fst_mem_of_mem_zipIdx hsite)
  · intro h
    obtain ⟨before, types, after, hlast⟩ := exists_lastListed h
    rw [get?_tabulate hlast]
    rfl

theorem get?_tabulate_eq_none_iff :
    (tabulate sites f).get? name = none ↔ name ∉ sites.map Prod.fst := by
  rw [← Option.not_isSome_iff_eq_none, isSome_get?_tabulate_iff]

variable {a b : String} {beforeA afterA beforeB afterB : List Listing} {typesA typesB : PageSet}

/-- The similarities of a listed site are a row of their own. -/
theorem get?_similarities (h : LastListed sites a beforeA typesA afterA) :
    (compare sites).similarities.get? a = some (tabulate sites fun other j =>
      if j = beforeA.length then 1.0 else jaccard typesA other.2) := by
  rw [similarities_compare, get?_tabulate h]

theorem isSome_similarities_iff :
    ((compare sites).similarities.get? a).isSome ↔ a ∈ sites.map Prod.fst := by
  rw [similarities_compare, isSome_get?_tabulate_iff]

theorem similarity?_of_last (ha : LastListed sites a beforeA typesA afterA)
    (hb : LastListed sites b beforeB typesB afterB) : (compare sites).similarity? a b =
      some (if beforeB.length = beforeA.length then 1.0 else jaccard typesA typesB) := by
  rw [CompareResult.similarity?, get?_similarities ha]
  exact get?_tabulate hb

/-- Two names are listed last at two places, so the diagonal is where the names are equal. -/
theorem similarity?_of_ne (ha : LastListed sites a beforeA typesA afterA)
    (hb : LastListed sites b beforeB typesB afterB) (hne : a ≠ b) :
    (compare sites).similarity? a b = some (jaccard typesA typesB) := by
  rw [similarity?_of_last ha hb, if_neg (ha.length_ne hb hne)]

theorem similarity?_self (h : a ∈ sites.map Prod.fst) :
    (compare sites).similarity? a a = some 1.0 := by
  obtain ⟨before, types, after, hlast⟩ := exists_lastListed h
  rw [similarity?_of_last hlast hlast, if_pos rfl]

theorem similarity?_eq_none_iff : (compare sites).similarity? a b = none ↔
    a ∉ sites.map Prod.fst ∨ b ∉ sites.map Prod.fst := by
  rw [CompareResult.similarity?]
  by_cases ha : a ∈ sites.map Prod.fst
  · obtain ⟨before, types, after, hlast⟩ := exists_lastListed ha
    rw [get?_similarities hlast, or_iff_right (not_not.2 ha)]
    exact get?_tabulate_eq_none_iff
  · rw [similarities_compare, get?_tabulate_eq_none_iff.2 ha]
    simp [ha]

theorem similarity?_comm (sites : List Listing) (a b : String) :
    (compare sites).similarity? a b = (compare sites).similarity? b a := by
  by_cases hlisted : a ∉ sites.map Prod.fst ∨ b ∉ sites.map Prod.fst
  · rw [similarity?_eq_none_iff.2 hlisted, similarity?_eq_none_iff.2 hlisted.symm]
  · obtain ⟨ha, hb⟩ := not_or.1 hlisted
    obtain ⟨_, _, _, ha⟩ := exists_lastListed (not_not.1 ha)
    obtain ⟨_, _, _, hb⟩ := exists_lastListed (not_not.1 hb)
    by_cases hab : a = b
    · rw [hab]
    · rw [similarity?_of_ne ha hb hab, similarity?_of_ne hb ha (Ne.symm hab), jaccard_comm]

theorem mem_foldl_inter {rest : List Listing} {s : PageSet} {type : UInt8} :
    type ∈ rest.foldl (fun types site => types.inter site.2) s ↔
      type ∈ s ∧ ∀ site ∈ rest, type ∈ site.2 := by
  induction rest generalizing s with
  | nil => simp
  | cons site rest ih =>
    rw [List.foldl_cons, ih, PageSet.mem_inter, List.forall_mem_cons, and_assoc]

theorem mem_common_iff {type : UInt8} :
    type ∈ common sites ↔ sites ≠ [] ∧ ∀ site ∈ sites, type ∈ site.2 := by
  cases sites with
  | nil => simp [common]
  | cons site sites => simp [common, mem_foldl_inter]

/-- What every comparison says, however names are repeated: the common page types are those of every
site, in ascending order; rows and columns of similarities are the listed names; a listed site is
entirely similar to itself; similarities are mutual; and those of different names come from the sets
that are listed last with them. -/
theorem compare_by_name (sites : List Listing) :
    let c := compare sites
    let names := sites.map Prod.fst
    (c.common.Pairwise (· < ·) ∧
        ∀ type, type ∈ c.common ↔ sites ≠ [] ∧ ∀ site ∈ sites, type ∈ site.2) ∧
      (∀ a, a ∈ c.similarities.keys ↔ a ∈ names) ∧
      (∀ a row, c.similarities.get? a = some row → ∀ b, b ∈ row.keys ↔ b ∈ names) ∧
      (∀ a ∈ names, c.similarity? a a = some 1.0) ∧
      (∀ a b, c.similarity? a b = c.similarity? b a) ∧
      (∀ a b beforeA A afterA beforeB B afterB, a ≠ b → LastListed sites a beforeA A afterA →
        LastListed sites b beforeB B afterB → c.similarity? a b =
          some (if A.members = ∅ ∧ B.members = ∅ then 0.0
            else roundedShare (A.members ∩ B.members).card (A.members ∪ B.members).card)) ∧
      ∀ a b, c.similarity? a b = none ↔ a ∉ names ∨ b ∉ names := by
  intro c names
  refine ⟨⟨(common sites).pairwise_toList, fun type => ?_⟩, fun a => ?_, fun a row hrow b => ?_,
    fun a ha => similarity?_self ha, similarity?_comm sites, ?_,
    fun a b => similarity?_eq_none_iff⟩
  · exact PageSet.mem_toList.trans mem_common_iff
  · exact Table.mem_keys_iff.trans isSome_similarities_iff
  · have ha : a ∈ names := isSome_similarities_iff.1 (Option.isSome_of_mem hrow)
    obtain ⟨before, types, after, hlast⟩ := exists_lastListed ha
    rw [get?_similarities hlast] at hrow
    rw [← Option.some.inj hrow]
    exact Table.mem_keys_iff.trans isSome_get?_tabulate_iff
  · intro a b beforeA A afterA beforeB B afterB hne ha hb
    rw [similarity?_of_ne ha hb hne, jaccard_eq]

/-- A page type occurs on a site of this name, and on none of another name. -/
structure OnlyOn (sites : List Listing) (name : String) (type : UInt8) : Prop where
  occurs : ∃ site ∈ sites, site.1 = name ∧ type ∈ site.2
  only : ∀ site ∈ sites, site.1 ≠ name → type ∉ site.2

/-- A page type occurs where a name is listed last, and at no other place. -/
def OnlyAt (before : List Listing) (types : PageSet) (after : List Listing) (type : UInt8) : Prop :=
  type ∈ types ∧ ∀ site ∈ before ++ after, type ∉ site.2

theorem mem_others_iff (h : LastListed sites name before types after) {type : UInt8} :
    type ∈ others sites before.length ↔ ∃ site ∈ before ++ after, type ∈ site.2 := by
  rw [others, h.eraseIdx, PageSet.mem_ofList, List.mem_flatMap]
  simp only [PageSet.mem_toList]

theorem mem_diff_others_iff (h : LastListed sites name before types after) {type : UInt8} :
    type ∈ (types.diff (others sites before.length)).toList ↔
      OnlyAt before types after type := by
  rw [PageSet.mem_toList, PageSet.mem_diff, mem_others_iff h, OnlyAt]
  simp only [not_exists, not_and]

theorem OnlyAt.onlyOn (h : LastListed sites name before types after) {type : UInt8}
    (ht : OnlyAt before types after type) : OnlyOn sites name type where
  occurs := ⟨(name, types), h.mem_iff.2 (.inl rfl), rfl, ht.1⟩
  only site hsite hne := ht.2 site ((h.mem_iff.1 hsite).resolve_left fun heq => hne (heq ▸ rfl))

/-- What a name has alone, its last place has alone, if nothing that other names lack is listed
with it before. -/
theorem OnlyOn.onlyAt (h : LastListed sites name before types after)
    (hbefore : ∀ site ∈ before, site.1 = name → ∀ type ∈ site.2,
      ∃ other ∈ sites, other.1 ≠ name ∧ type ∈ other.2)
    {type : UInt8} (ht : OnlyOn sites name type) : OnlyAt before types after type := by
  have hnot (site : Listing) (hsite : site ∈ before ++ after) : type ∉ site.2 := by
    intro hmem
    by_cases hname : site.1 = name
    · obtain ⟨other, hother, hne, hin⟩ := hbefore site (h.mem_before hsite hname) hname type hmem
      exact ht.only other hother hne hin
    · exact ht.only site (h.mem_iff.2 (.inr hsite)) hname hmem
  obtain ⟨site, hsite, _, hmem⟩ := ht.occurs
  rcases h.mem_iff.1 hsite with rfl | hsite
  · exact ⟨hmem, hnot⟩
  · exact absurd hmem (hnot site hsite)

/-- For every listed name there is an entry, which lists in ascending order what occurs where the
name is listed last and at no other place. That is what no other name has, if and only if each page
type that was listed with the name before occurs with another name as well. -/
theorem unique_of_listed {sites : List Listing} {name : String}
    (h : name ∈ sites.map Prod.fst) :
    ∃ before types after unique, LastListed sites name before types after ∧
      (compare sites).unique.get? name = some unique ∧
      unique.Pairwise (· < ·) ∧
      (∀ type, type ∈ unique ↔ OnlyAt before types after type) ∧
      ((∀ type, type ∈ unique ↔ OnlyOn sites name type) ↔
        ∀ site ∈ before, site.1 = name → ∀ type ∈ site.2,
          ∃ other ∈ sites, other.1 ≠ name ∧ type ∈ other.2) := by
  obtain ⟨before, types, after, hlast⟩ := exists_lastListed h
  refine ⟨before, types, after, (types.diff (others sites before.length)).toList, hlast, ?_,
    PageSet.pairwise_toList _, ?_, ?_⟩
  · rw [unique_compare, get?_tabulate hlast]
  · intro type
    exact mem_diff_others_iff hlast
  · simp only [mem_diff_others_iff hlast]
    constructor
    · intro hall site hsite hname type hmem
      by_contra hnone
      have honly : OnlyOn sites name type :=
        ⟨⟨site, hlast.mem_iff.2 (.inr (List.mem_append_left _ hsite)), hname, hmem⟩,
          fun other hother hne hin => hnone ⟨other, hother, hne, hin⟩⟩
      exact ((hall type).2 honly).2 site (List.mem_append_left _ hsite) hmem
    · intro hbefore type
      exact ⟨fun ht => ht.onlyOn hlast, fun ht => ht.onlyAt hlast hbefore⟩

/-- A name that is listed twice, with a page type before that another name has too. -/
theorem unique_of_listed_twice :
    let sites : List Listing := [("a.com", .ofList [1]), ("b.com", .ofList [1]),
      ("a.com", .ofList [2, 3]), ("c.com", .ofList [3])]
    "a.com" ∈ sites.map Prod.fst ∧ (compare sites).unique.get? "a.com" = some [2] ∧
      ∃ before types after, LastListed sites "a.com" before types after ∧
        ∀ type, type ∈ [2] ↔ OnlyAt before types after type := by
  intro sites
  have hlisted : "a.com" ∈ sites.map Prod.fst := by decide
  have hget : (compare sites).unique.get? "a.com" = some [2] := by decide
  obtain ⟨before, types, after, unique, hlast, hunique, _, hmem, _⟩ := unique_of_listed hlisted
  obtain rfl : unique = [2] := Option.some.inj (hunique.symm.trans hget)
  exact ⟨hlisted, hget, before, types, after, hlast, hmem⟩

/-- Of a site that is listed twice nothing is unique: each place is one of the others for the other
place. And what only its first place has is lost. -/
theorem unique_of_twin :
    let twin : List Listing := [("a.com", .ofList [1]), ("a.com", .ofList [1])]
    let changed : List Listing := [("a.com", .ofList [1]), ("a.com", .ofList [2])]
    (OnlyOn twin "a.com" 1 ∧ (compare twin).unique.get? "a.com" = some []) ∧
      OnlyOn changed "a.com" 1 ∧ (compare changed).unique.get? "a.com" = some [2] := by
  intro twin changed
  have htwin : OnlyOn twin "a.com" 1 := ⟨⟨_, List.mem_cons_self, rfl, rfl⟩, by simp [twin]⟩
  have hchanged : OnlyOn changed "a.com" 1 :=
    ⟨⟨_, List.mem_cons_self, rfl, rfl⟩, by simp [changed]⟩
  exact ⟨⟨htwin, by decide⟩, hchanged, by decide⟩

end Listing

end SiteAtlas
