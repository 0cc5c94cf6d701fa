/-!
# The last entry of each key

Where entries with the same key replace one another, what counts of a list is the last entry of each
key. Whatever the entries are put into, it holds those of the list that are the last ones of their
keys, and of what it held before the entries whose keys do not occur in the list.
-/
namespace SiteAtlas

variable {α κ σ : Type}

/-- An entry of a list behind which no other one has the same key. -/
def LastOf (key : α → κ) (xs : List α) (x : α) : Prop :=
  ∃ front back, xs = front ++ x :: back ∧ ∀ y ∈ back, key y ≠ key x

def lastOfEach [DecidableEq κ] (key : α → κ) : List α → List α
  | [] => []
  | x :: xs => if ∃ y ∈ xs, key y = key x then lastOfEach key xs else x :: lastOfEach key xs

variable {key : α → κ} {x y z : α}

@[simp] theorem not_lastOf_nil : ¬LastOf key [] x := by
  rintro ⟨front, back, h, -⟩
  simp at h

theorem lastOf_cons {xs : List α} :
    LastOf key (y :: xs) x ↔ LastOf key xs x ∨ y = x ∧ ∀ z ∈ xs, key z ≠ key x := by
  constructor
  · rintro ⟨front, back, h, hback⟩
    cases front with
    | nil =>
      cases h
      exact .inr ⟨rfl, hback⟩
    | cons z front =>
      cases h
      exact .inl ⟨front, back, rfl, hback⟩
  · rintro (⟨front, back, rfl, hback⟩ | ⟨rfl, hback⟩)
    · exact ⟨y :: front, back, rfl, hback⟩
    · exact ⟨[], xs, rfl, hback⟩

theorem lastOf_append {xs ys : List α} :
    LastOf key (xs ++ ys) x ↔ LastOf key ys x ∨ LastOf key xs x ∧ ∀ y ∈ ys, key y ≠ key x := by
  induction xs with
  | nil => simp
  | cons z xs ih =>
    rw [List.cons_append, lastOf_cons, lastOf_cons, ih]
    simp only [List.forall_mem_append]
    rw [or_assoc, ← and_assoc, ← or_and_right]

theorem LastOf.mem {xs : List α} (h : LastOf key xs x) : x ∈ xs := by
  obtain ⟨front, back, rfl, -⟩ := h
  simp

/-- Every key that occurs has a last entry. -/
theorem exists_lastOf {xs : List α} (h : x ∈ xs) : ∃ y, LastOf key xs y ∧ key y = key x := by
  induction xs generalizing x with
  | nil => cases h
  | cons z xs ih =>
    simp only [lastOf_cons]
    by_cases hmore : ∃ y ∈ xs, key y = key x
    · obtain ⟨y, hy, hkey⟩ := hmore
      obtain ⟨last, hlast, hlastKey⟩ := ih hy
      exact ⟨last, .inl hlast, hlastKey.trans hkey⟩
    · rcases List.mem_cons.1 h with rfl | hx
      · exact ⟨x, .inr ⟨rfl, fun y hy hkey => hmore ⟨y, hy, hkey⟩⟩, rfl⟩
      · exact absurd ⟨x, hx, rfl⟩ hmore

/-- A key does not occur if no last entry has it. -/
theorem forall_key_ne_iff {xs : List α} {k : κ} :
    (∀ x ∈ xs, key x ≠ k) ↔ ∀ x, LastOf key xs x → key x ≠ k := by
  refine ⟨fun h x hx => h x hx.mem, fun h x hx => ?_⟩
  obtain ⟨y, hy, hkey⟩ : ∃ y, LastOf key xs y ∧ key y = key x := exists_lastOf hx
  rw [← hkey]
  exact h y hy

/-- Neighbours with different keys may change places. -/
theorem lastOf_swap (h : key x ≠ key y) (front back : List α) :
    LastOf key (front ++ x :: y :: back) z ↔ LastOf key (front ++ y :: x :: back) z := by
  have hback : LastOf key (x :: y :: back) z ↔ LastOf key (y :: x :: back) z := by
    simp only [lastOf_cons, List.forall_mem_cons]
    grind
  rw [lastOf_append, lastOf_append, hback]
  simp only [List.forall_mem_cons, and_left_comm]

/-- An entry in front of another one with its key may be left out. -/
theorem lastOf_replaced (h : key x = key y) (front mid back : List α) :
    LastOf key (front ++ x :: (mid ++ y :: back)) z ↔
      LastOf key (front ++ (mid ++ y :: back)) z := by
  have hmid : LastOf key (x :: (mid ++ y :: back)) z ↔ LastOf key (mid ++ y :: back) z := by
    rw [lastOf_cons, or_iff_left]
    rintro ⟨rfl, hlater⟩
    exact hlater y (by simp) h.symm
  have hkeys : (∀ w ∈ x :: (mid ++ y :: back), key w ≠ key z) ↔
      ∀ w ∈ mid ++ y :: back, key w ≠ key z := by
    rw [List.forall_mem_cons, and_iff_right_of_imp]
    intro hlater
    rw [h]
    exact hlater y (by simp)
  rw [lastOf_append, lastOf_append, hmid, hkeys]

section Each

variable [DecidableEq κ] {xs : List α}

theorem mem_lastOfEach : x ∈ lastOfEach key xs ↔ LastOf key xs x := by
  induction xs with
  | nil => simp [lastOfEach]
  | cons y xs ih =>
    rw [lastOfEach, lastOf_cons]
    split
    · rename_i hmore
      rw [ih, or_iff_left]
      rintro ⟨rfl, hlast⟩
      obtain ⟨z, hz, hkey⟩ := hmore
      exact hlast z hz hkey
    · rename_i hlast
      have hy : x = y ↔ y = x ∧ ∀ z ∈ xs, key z ≠ key x := by
        constructor
        · rintro rfl
          exact ⟨rfl, fun z hz hkey => hlast ⟨z, hz, hkey⟩⟩
        · exact fun h => h.1.symm
      rw [List.mem_cons, ih, ← hy, or_comm]

theorem pairwise_lastOfEach : (lastOfEach key xs).Pairwise fun x y => key x ≠ key y := by
  induction xs with
  | nil => exact List.Pairwise.nil
  | cons x xs ih =>
    rw [lastOfEach]
    split
    · exact ih
    · rename_i hlast
      refine List.pairwise_cons.2 ⟨fun y hy hkey => hlast ⟨y, ?_, hkey.symm⟩, ih⟩
      exact (mem_lastOfEach.1 hy).mem

/-- Nothing is replaced once the last entries are all that is left. -/
theorem lastOf_lastOfEach : LastOf key (lastOfEach key xs) x ↔ LastOf key xs x := by
  refine ⟨fun h => mem_lastOfEach.1 h.mem, fun h => ?_⟩
  rw [← mem_lastOfEach] at h
  obtain ⟨front, back, heq⟩ := List.append_of_mem h
  have hpairwise : (lastOfEach key xs).Pairwise fun x y => key x ≠ key y := pairwise_lastOfEach
  rw [heq] at hpairwise
  have hback := (List.pairwise_cons.1 (List.pairwise_append.1 hpairwise).2.1).1
  exact ⟨front, back, heq, fun y hy => (hback y hy).symm⟩

end Each

/-- What holds the entries of a list after they have been put into it one by one: each of them
replaces the one that is held with its key, and leaves the others. -/
theorem holds_foldl {holds : σ → α → Prop} {put : σ → α → σ}
    (hput : ∀ s x y, holds (put s y) x ↔ y = x ∨ key y ≠ key x ∧ holds s x) {xs : List α} {s : σ} :
    holds (xs.foldl put s) x ↔ LastOf key xs x ∨ (∀ y ∈ xs, key y ≠ key x) ∧ holds s x := by
  induction xs generalizing s with
  | nil => simp
  | cons y xs ih =>
    rw [List.foldl_cons, ih, hput, lastOf_cons, or_assoc, and_or_left, List.forall_mem_cons]
    simp only [and_comm, and_assoc]

end SiteAtlas
