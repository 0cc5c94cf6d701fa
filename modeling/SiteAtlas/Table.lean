/-!
Tables: finite maps held as association lists in strictly ascending key order.

Main statements: inserting keeps the order, a look-up after an insertion sees the new value at its
key and the old table elsewhere, and two tables with the same look-ups are equal.
-/
namespace SiteAtlas

section Entries

variable {κ α : Type} [Ord κ]

/-- Strictly ascending keys: sorted and without repetition. -/
def Ascending (entries : List (κ × α)) : Prop :=
  entries.Pairwise fun a b => compare a.1 b.1 = .lt

/-- Insert at the key's place, replacing the entry that is already there. -/
def putEntry (key : κ) (value : α) : List (κ × α) → List (κ × α)
  | [] => [(key, value)]
  | (k, v) :: rest =>
    match compare key k with
    | .lt => (key, value) :: (k, v) :: rest
    | .eq => (key, value) :: rest
    | .gt => (k, v) :: putEntry key value rest

/-- The value at a key of an association list, the first one that matches. -/
def entryAt? (key : κ) : List (κ × α) → Option α
  | [] => none
  | (k, v) :: rest => if compare key k = .eq then some v else entryAt? key rest

/-- Sort by key; of equal keys the last one stays. -/
def sortEntries (entries : List (κ × α)) : List (κ × α) :=
  entries.foldl (fun sorted e => putEntry e.1 e.2 sorted) []

@[simp] theorem putEntry_nil (key : κ) (value : α) : putEntry key value [] = [(key, value)] := rfl

@[simp] theorem entryAt?_nil (key : κ) : entryAt? key ([] : List (κ × α)) = none := rfl

theorem mem_putEntry {key : κ} {value : α} {e : κ × α} :
    ∀ {entries : List (κ × α)}, e ∈ putEntry key value entries → e = (key, value) ∨ e ∈ entries
  | [], h => by simpa using h
  | (k, v) :: rest, h => by
    simp only [putEntry] at h
    split at h
    · simpa using h
    · rcases List.mem_cons.1 h with h | h
      · exact .inl h
      · exact .inr (List.mem_cons_of_mem _ h)
    · rcases List.mem_cons.1 h with h | h
      · exact .inr (h ▸ List.mem_cons_self)
      · rcases mem_putEntry h with h | h
        · exact .inl h
        · exact .inr (List.mem_cons_of_mem _ h)

variable [Std.TransOrd κ] [Std.LawfulEqOrd κ]

/-- Insertion keeps the order. -/
theorem ascending_putEntry (key : κ) (value : α) :
    ∀ {entries : List (κ × α)}, Ascending entries → Ascending (putEntry key value entries)
  | [], _ => List.pairwise_singleton _ _
  | (k, v) :: rest, h => by
    obtain ⟨hk, hrest⟩ := List.pairwise_cons.1 h
    simp only [putEntry]
    split
    · rename_i hlt
      refine List.pairwise_cons.2 ⟨fun e he => ?_, h⟩
      rcases List.mem_cons.1 he with he | he
      · exact he ▸ hlt
      · exact Std.TransCmp.lt_trans hlt (hk e he)
    · rename_i heq
      have hkey : key = k := Std.LawfulEqCmp.eq_of_compare heq
      exact List.pairwise_cons.2 ⟨fun e he => hkey ▸ hk e he, hrest⟩
    · rename_i hgt
      refine List.pairwise_cons.2 ⟨fun e he => ?_, ascending_putEntry key value hrest⟩
      rcases mem_putEntry he with he | he
      · exact he ▸ Std.OrientedCmp.lt_of_gt hgt
      · exact hk e he

theorem ascending_sortEntries (entries : List (κ × α)) : Ascending (sortEntries entries) := by
  have step : ∀ (es : List (κ × α)) (acc : List (κ × α)), Ascending acc →
      Ascending (es.foldl (fun sorted e => putEntry e.1 e.2 sorted) acc) := by
    intro es
    induction es with
    | nil => exact fun _ h => h
    | cons e es ih => exact fun acc h => ih _ (ascending_putEntry e.1 e.2 h)
  exact step entries [] List.Pairwise.nil

omit [Std.TransOrd κ] [Std.LawfulEqOrd κ] in
/-- A key above all keys of a list goes to its end. -/
theorem putEntry_eq_append [Std.OrientedOrd κ] {key : κ} {value : α} {entries : List (κ × α)}
    (h : ∀ e ∈ entries, compare e.1 key = .lt) :
    putEntry key value entries = entries ++ [(key, value)] := by
  induction entries with
  | nil => rfl
  | cons e rest ih =>
    have he : compare key e.1 = .gt := Std.OrientedCmp.gt_of_lt (h e List.mem_cons_self)
    rw [putEntry, he]
    exact congrArg (e :: ·) (ih fun e he => h e (List.mem_cons_of_mem _ he))

omit [Std.LawfulEqOrd κ] in
/-- Sorting leaves an ascending list as it is. -/
theorem sortEntries_eq_self {entries : List (κ × α)} (h : Ascending entries) :
    sortEntries entries = entries := by
  have step (es acc : List (κ × α)) (h : Ascending (acc ++ es)) :
      es.foldl (fun sorted e => putEntry e.1 e.2 sorted) acc = acc ++ es := by
    induction es generalizing acc with
    | nil => rw [List.foldl_nil, List.append_nil]
    | cons e es ih =>
      have hlast : ∀ a ∈ acc, compare a.1 e.1 = .lt := fun a ha =>
        (List.pairwise_append.1 h).2.2 a ha e List.mem_cons_self
      rw [List.foldl_cons, putEntry_eq_append hlast, ih, List.append_assoc, List.singleton_append]
      rwa [List.append_assoc, List.singleton_append]
  exact step entries [] h

omit [Std.TransOrd κ] in
@[simp] theorem entryAt?_putEntry_self (key : κ) (value : α) (entries : List (κ × α)) :
    entryAt? key (putEntry key value entries) = some value := by
  induction entries with
  | nil => simp [entryAt?]
  | cons e rest ih =>
    obtain ⟨k, v⟩ := e
    simp only [putEntry]
    split
    · simp [entryAt?]
    · simp [entryAt?]
    · rename_i hgt
      simp [entryAt?, hgt, ih]

omit [Std.TransOrd κ] in
theorem entryAt?_putEntry_of_ne {key other : κ} (value : α) (h : other ≠ key)
    (entries : List (κ × α)) :
    entryAt? other (putEntry key value entries) = entryAt? other entries := by
  have hne : compare other key ≠ .eq := fun e => h (Std.LawfulEqCmp.eq_of_compare e)
  induction entries with
  | nil => simp [entryAt?, hne]
  | cons e rest ih =>
    obtain ⟨k, v⟩ := e
    simp only [putEntry]
    split
    · simp [entryAt?, hne]
    · rename_i heq
      have hkey : key = k := Std.LawfulEqCmp.eq_of_compare heq
      subst hkey
      simp [entryAt?, hne]
    · simp [entryAt?, ih]

omit [Std.TransOrd κ] [Std.LawfulEqOrd κ] in
/-- A key below all keys of a list is not found in it. -/
theorem entryAt?_eq_none {key : κ} :
    ∀ {entries : List (κ × α)}, (∀ e ∈ entries, compare key e.1 = .lt) →
      entryAt? key entries = none
  | [], _ => rfl
  | (k, v) :: rest, h => by
    have hk : compare key k = .lt := h (k, v) List.mem_cons_self
    rw [entryAt?, hk, if_neg (by decide)]
    exact entryAt?_eq_none fun e he => h e (List.mem_cons_of_mem _ he)

omit [Std.TransOrd κ] in
@[simp] theorem entryAt?_cons_self (key : κ) (value : α) (rest : List (κ × α)) :
    entryAt? key ((key, value) :: rest) = some value := by
  simp [entryAt?]

/-- Ascending lists with the same look-ups are equal. -/
theorem eq_of_entryAt? : ∀ {s t : List (κ × α)}, Ascending s → Ascending t →
    (∀ key, entryAt? key s = entryAt? key t) → s = t
  | [], [], _, _, _ => rfl
  | [], (k, v) :: t, _, _, h => by simpa using h k
  | (k, v) :: s, [], _, _, h => by simpa using h k
  | (k, v) :: s, (l, w) :: t, hs, ht, h => by
    obtain ⟨hk, tailS⟩ := List.pairwise_cons.1 hs
    obtain ⟨hl, tailT⟩ := List.pairwise_cons.1 ht
    cases hc : compare k l with
    | lt =>
      have none : entryAt? k ((l, w) :: t) = none := entryAt?_eq_none fun e he => by
        rcases List.mem_cons.1 he with rfl | he
        · exact hc
        · exact Std.TransCmp.lt_trans hc (hl e he)
      simpa [none] using h k
    | gt =>
      have hc := Std.OrientedCmp.lt_of_gt hc
      have none : entryAt? l ((k, v) :: s) = none := entryAt?_eq_none fun e he => by
        rcases List.mem_cons.1 he with rfl | he
        · exact hc
        · exact Std.TransCmp.lt_trans hc (hk e he)
      simpa [none] using h l
    | eq =>
      obtain rfl : k = l := Std.LawfulEqCmp.eq_of_compare hc
      obtain rfl : v = w := by simpa using h k
      have rest : ∀ key, entryAt? key s = entryAt? key t := fun key => by
        by_cases hkey : compare key k = .eq
        · obtain rfl : key = k := Std.LawfulEqCmp.eq_of_compare hkey
          rw [entryAt?_eq_none hk, entryAt?_eq_none hl]
        · simpa [entryAt?, hkey] using h key
      rw [eq_of_entryAt? tailS tailT rest]

end Entries

/-- A finite map; the entries are its graph in ascending key order. -/
structure Table (κ α : Type) [Ord κ] where
  entries : List (κ × α)
  ascending : Ascending entries

namespace Table

variable {κ α : Type} [Ord κ]

@[ext] theorem ext {s t : Table κ α} (h : s.entries = t.entries) : s = t := by
  cases s; cases t; cases h; rfl

def empty : Table κ α := ⟨[], List.Pairwise.nil⟩

instance : Inhabited (Table κ α) := ⟨empty⟩

def get? (t : Table κ α) (key : κ) : Option α := entryAt? key t.entries

def size (t : Table κ α) : Nat := t.entries.length

def isEmpty (t : Table κ α) : Bool := t.entries.isEmpty

def keys (t : Table κ α) : List κ := t.entries.map Prod.fst

@[simp] theorem entries_empty : (empty : Table κ α).entries = [] := rfl

@[simp] theorem get?_empty (key : κ) : (empty : Table κ α).get? key = none := rfl

variable [Std.TransOrd κ] [Std.LawfulEqOrd κ]

def insert (t : Table κ α) (key : κ) (value : α) : Table κ α :=
  ⟨putEntry key value t.entries, ascending_putEntry key value t.ascending⟩

/-- The table of a list of pairs; of equal keys the last one counts. -/
def ofList (pairs : List (κ × α)) : Table κ α :=
  ⟨sortEntries pairs, ascending_sortEntries pairs⟩

@[simp] theorem get?_insert_self (t : Table κ α) (key : κ) (value : α) :
    (t.insert key value).get? key = some value :=
  entryAt?_putEntry_self key value t.entries

theorem get?_insert_of_ne (t : Table κ α) {key other : κ} (value : α) (h : other ≠ key) :
    (t.insert key value).get? other = t.get? other :=
  entryAt?_putEntry_of_ne value h t.entries

/-- A table is determined by its look-ups. -/
theorem ext_get? {s t : Table κ α} (h : ∀ key, s.get? key = t.get? key) : s = t :=
  ext (eq_of_entryAt? s.ascending t.ascending h)

end Table

end SiteAtlas
