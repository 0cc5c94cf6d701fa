import Mathlib.Data.Finset.Card
import SiteAtlas.Proofs.Json.Members
import SiteAtlas.Proofs.Last

/-!
# Look-ups in tables of lists

A table is made of a list of pairs by setting one after another. So the pair with which a key occurs
last is the one that is found, and the keys are those of the list. Conversely a table is listed by
looking up all keys in ascending order.
-/
namespace SiteAtlas.Table

variable {κ α β : Type} [Ord κ]

theorem isEmpty_iff {t : Table κ α} : t.isEmpty = true ↔ t = empty := by
  rw [isEmpty, List.isEmpty_iff, Table.ext_iff, entries_empty]

theorem mem_keys_iff [Std.LawfulEqOrd κ] {t : Table κ α} {key : κ} :
    key ∈ t.keys ↔ (t.get? key).isSome := by
  rw [get?, entryAt?_isSome_iff, keys, List.mem_map]

variable [Std.TransOrd κ] [Std.LawfulEqOrd κ]

theorem get?_insert [DecidableEq κ] (t : Table κ α) (key other : κ) (value : α) :
    (t.insert key value).get? other = if key = other then some value else t.get? other := by
  by_cases h : key = other
  · rw [if_pos h, ← h, get?_insert_self]
  · rw [if_neg h, get?_insert_of_ne t value (Ne.symm h)]

theorem get?_ofList (pairs : List (κ × α)) (key : κ) :
    (ofList pairs).get? key = entryAt? key pairs.reverse :=
  entryAt?_sortEntries key pairs

theorem isSome_get?_ofList_iff {pairs : List (κ × α)} {key : κ} :
    ((ofList pairs).get? key).isSome ↔ ∃ e ∈ pairs, e.1 = key := by
  rw [get?_ofList, entryAt?_isSome_iff]
  simp only [List.mem_reverse]

/-- What is found is the last entry that the list has for the key. -/
theorem get?_ofList_eq_some {pairs : List (κ × α)} {key : κ} {value : α} :
    (ofList pairs).get? key = some value ↔ LastOf Prod.fst pairs (key, value) := by
  let holds (es : List (κ × α)) (e : κ × α) : Prop := entryAt? e.1 es = some e.2
  have hput (es : List (κ × α)) (e f : κ × α) :
      holds (putEntry f.1 f.2 es) e ↔ f = e ∨ f.1 ≠ e.1 ∧ holds es e := by
    obtain ⟨k, v⟩ := e
    obtain ⟨l, w⟩ := f
    by_cases hkey : l = k
    · subst hkey
      simp [holds]
    · simp [holds, hkey, entryAt?_putEntry_of_ne _ (Ne.symm hkey)]
  have hheld : holds (sortEntries pairs) (key, value) ↔ LastOf Prod.fst pairs (key, value) ∨
      (∀ e ∈ pairs, e.1 ≠ key) ∧ holds [] (key, value) := holds_foldl hput
  exact hheld.trans (or_iff_left fun h => nomatch h.2)

theorem mem_entries_iff {t : Table κ α} {key : κ} {value : α} :
    (key, value) ∈ t.entries ↔ t.get? key = some value :=
  (entryAt?_eq_some_iff (pairwise_ne_of_ascending t.ascending)).symm

omit [Std.LawfulEqOrd κ] in
/-- No key is held twice. -/
theorem size_eq_card [DecidableEq κ] (t : Table κ α) : t.size = t.keys.toFinset.card := by
  have hnodup : t.keys.Nodup := List.pairwise_map.2 (pairwise_ne_of_ascending t.ascending)
  rw [List.toFinset_card_of_nodup hnodup, keys, List.length_map, size]

theorem size_ofList [DecidableEq κ] (pairs : List (κ × α)) :
    (ofList pairs).size = (pairs.map Prod.fst).toFinset.card := by
  have hkeys : (ofList pairs).keys.toFinset = (pairs.map Prod.fst).toFinset := by
    ext key
    rw [List.mem_toFinset, List.mem_toFinset, mem_keys_iff, isSome_get?_ofList_iff, List.mem_map]
  rw [size_eq_card, hkeys]

/-- A table is listed by looking up all keys in ascending order. -/
theorem entries_eq_filterMap (t : Table κ α) {keys : List κ}
    (hascending : keys.Pairwise fun k l => compare k l = .lt) (hall : ∀ k, k ∈ keys) :
    t.entries = keys.filterMap fun k => (t.get? k).map (k, ·) := by
  have hlisted : Ascending (keys.filterMap fun k => (t.get? k).map (k, ·)) := by
    refine List.Pairwise.filterMap _ (fun k l hlt e he f hf => ?_) hascending
    obtain ⟨_, _, rfl⟩ := Option.map_eq_some_iff.1 he
    obtain ⟨_, _, rfl⟩ := Option.map_eq_some_iff.1 hf
    exact hlt
  refine eq_of_entryAt? t.ascending hlisted fun key => ?_
  change t.get? key = _
  cases hkey : t.get? key with
  | none =>
    refine (entryAt?_eq_none_iff.2 fun e he => ?_).symm
    obtain ⟨k, -, hk⟩ := List.mem_filterMap.1 he
    obtain ⟨a, ha, rfl⟩ := Option.map_eq_some_iff.1 hk
    rintro rfl
    cases hkey.symm.trans ha
  | some a =>
    have hmem : (key, a) ∈ keys.filterMap fun k => (t.get? k).map (k, ·) :=
      List.mem_filterMap.2 ⟨key, hall key, by rw [hkey]; rfl⟩
    exact (entryAt?_of_mem hlisted hmem).symm

theorem flatMap_entries (t : Table κ α) {keys : List κ}
    (hascending : keys.Pairwise fun k l => compare k l = .lt) (hall : ∀ k, k ∈ keys)
    (f : κ × α → List β) :
    t.entries.flatMap f = keys.flatMap fun k => (t.get? k).elim [] fun a => f (k, a) := by
  rw [t.entries_eq_filterMap hascending hall]
  clear hascending hall
  induction keys with
  | nil => rfl
  | cons k keys ih =>
    rw [List.filterMap_cons, List.flatMap_cons]
    cases t.get? k with
    | none => exact ih
    | some a => exact congrArg (f (k, a) ++ ·) ih

end SiteAtlas.Table
