/-!
# The first fault

A sequence of checks gives the first fault that it finds, and a result if there is none. So it is
described by the list of all faults, in the order of the checks, and by the result.
-/
namespace SiteAtlas

variable {ε α β : Type}

/-- The result if there is no fault; otherwise the first fault. -/
def unlessFault (faults : List ε) (a : α) : Except ε α :=
  match faults with
  | [] => .ok a
  | e :: _ => .error e

@[simp] theorem unlessFault_nil (a : α) : unlessFault ([] : List ε) a = .ok a := rfl

@[simp] theorem unlessFault_cons (e : ε) (faults : List ε) (a : α) :
    unlessFault (e :: faults) a = .error e := rfl

variable {faults more : List ε}

theorem unlessFault_eq_ok {a b : α} : unlessFault faults a = .ok b ↔ faults = [] ∧ a = b := by
  cases faults <;> simp

theorem exists_unlessFault_eq_ok {a : α} :
    (∃ b, unlessFault faults a = .ok b) ↔ faults = [] := by
  simp only [unlessFault_eq_ok, exists_and_left, exists_eq', and_true]

theorem unlessFault_eq_error {a : α} {e : ε} :
    unlessFault faults a = .error e ↔ faults.head? = some e := by
  cases faults <;> simp

/-- The result matters only if there is no fault. -/
theorem unlessFault_congr {a b : α} (h : faults = [] → a = b) :
    unlessFault faults a = unlessFault faults b := by
  cases faults with
  | nil => rw [h rfl]
  | cons => rfl

/-- What is checked later comes later in the list. -/
theorem bind_eq_unlessFault {x : Except ε α} {f : α → Except ε β} {a : α} {b : β}
    (hx : x = unlessFault faults a) (hf : f a = unlessFault more b) :
    (x >>= f) = unlessFault (faults ++ more) b := by
  rw [hx]
  cases faults with
  | nil => exact hf
  | cons => rfl

theorem map_eq_unlessFault {x : Except ε α} {f : α → β} {a : α} (hx : x = unlessFault faults a) :
    (x >>= fun a => pure (f a)) = unlessFault faults (f a) := by
  rw [hx]
  cases faults <;> rfl

theorem mapM_eq_unlessFault {f : α → Except ε β} {faults : α → List ε} {g : α → β} {xs : List α}
    (h : ∀ x ∈ xs, f x = unlessFault (faults x) (g x)) :
    xs.mapM f = unlessFault (xs.flatMap faults) (xs.map g) := by
  induction xs with
  | nil => rfl
  | cons x xs ih =>
    have hxs := ih fun y hy => h y (List.mem_cons_of_mem x hy)
    rw [List.mapM_cons, List.flatMap_cons, List.map_cons]
    exact bind_eq_unlessFault (h x List.mem_cons_self) (map_eq_unlessFault hxs)

theorem forM_eq_unlessFault {f : α → Except ε Unit} {faults : α → List ε} {xs : List α}
    (h : ∀ x ∈ xs, f x = unlessFault (faults x) ()) :
    xs.forM f = unlessFault (xs.flatMap faults) () := by
  induction xs with
  | nil => rfl
  | cons x xs ih =>
    have hxs := ih fun y hy => h y (List.mem_cons_of_mem x hy)
    rw [List.flatMap_cons]
    exact bind_eq_unlessFault (h x List.mem_cons_self) hxs

end SiteAtlas
