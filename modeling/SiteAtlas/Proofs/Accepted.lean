/-!
# Accepted results

When a sequence of steps that may fail succeeds, each of its steps did. What is made of a result
changes nothing about whether there is one.
-/
namespace SiteAtlas

variable {ε α β : Type}

theorem bind_eq_ok {x : Except ε α} {f : α → Except ε β} {b : β} :
    (x >>= f) = .ok b ↔ ∃ a, x = .ok a ∧ f a = .ok b := by
  cases x with
  | error e => simp [bind, Except.bind]
  | ok a => simp [bind, Except.bind]

theorem map_eq_ok {x : Except ε α} {f : α → β} {b : β} :
    x.map f = .ok b ↔ ∃ a, x = .ok a ∧ f a = b := by
  cases x with
  | error e => simp [Except.map]
  | ok a => simp [Except.map]

theorem map_eq_error {x : Except ε α} {f : α → β} {e : ε} : x.map f = .error e ↔ x = .error e := by
  cases x with
  | error e => simp [Except.map]
  | ok a => simp [Except.map]

theorem mapError_eq_ok {ε' : Type} {x : Except ε α} {f : ε → ε'} {a : α} :
    x.mapError f = .ok a ↔ x = .ok a := by
  cases x with
  | error e => constructor <;> rintro ⟨⟩
  | ok b => constructor <;> (rintro ⟨⟩; rfl)

/-- A list of which every item is accepted. -/
theorem mapM_eq_ok {f : α → Except ε β} {g : α → β} {xs : List α}
    (h : ∀ x ∈ xs, f x = .ok (g x)) : xs.mapM f = .ok (xs.map g) := by
  induction xs with
  | nil => rfl
  | cons x xs ih =>
    have hx := h x List.mem_cons_self
    have hxs := ih fun y hy => h y (List.mem_cons_of_mem _ hy)
    simp [List.mapM_cons, hx, hxs, bind, Except.bind, pure, Except.pure]

/-- A list is accepted if each of its items is, with the results in order. -/
theorem mapM_eq_ok_iff {f : α → Except ε β} {xs : List α} {ys : List β} :
    xs.mapM f = .ok ys ↔ xs.map f = ys.map .ok := by
  induction xs generalizing ys with
  | nil => cases ys <;> simp [pure, Except.pure]
  | cons x xs ih =>
    rw [List.mapM_cons, bind_eq_ok]
    cases ys with
    | nil => simp [bind_eq_ok, pure, Except.pure]
    | cons y ys => simp [bind_eq_ok, ih, pure, Except.pure]

theorem mem_of_map_eq_map_ok {f : α → Except ε β} {xs : List α} {ys : List β}
    (h : xs.map f = ys.map .ok) {y : β} : y ∈ ys ↔ ∃ x ∈ xs, f x = .ok y := by
  have hmem : (Except.ok y : Except ε β) ∈ ys.map .ok ↔ .ok y ∈ xs.map f := by rw [h]
  simpa using hmem

/-- What the results have in common with the items. -/
theorem map_eq_map_of_ok {γ : Type} {f : α → Except ε β} {xs : List α} {ys : List β}
    (h : xs.map f = ys.map .ok) {g : α → γ} {k : β → γ} (hgk : ∀ x y, f x = .ok y → g x = k y) :
    xs.map g = ys.map k := by
  induction xs generalizing ys with
  | nil =>
    cases ys with
    | nil => rfl
    | cons => cases h
  | cons x xs ih =>
    cases ys with
    | nil => cases h
    | cons y ys =>
      obtain ⟨hx, hxs⟩ := List.cons.inj h
      rw [List.map_cons, List.map_cons, hgk x y hx, ih hxs]

theorem exists_map_eq_map_ok {f : α → Except ε β} {xs : List α} :
    (∃ ys : List β, xs.map f = ys.map .ok) ↔ ∀ x ∈ xs, ∃ y, f x = .ok y := by
  constructor
  · rintro ⟨ys, h⟩ x hx
    have hfx : f x ∈ ys.map .ok := h ▸ List.mem_map.2 ⟨x, hx, rfl⟩
    obtain ⟨y, -, hy⟩ := List.mem_map.1 hfx
    exact ⟨y, hy.symm⟩
  · intro h
    induction xs with
    | nil => exact ⟨[], rfl⟩
    | cons x xs ih =>
      obtain ⟨y, hy⟩ := h x List.mem_cons_self
      obtain ⟨ys, hys⟩ := ih fun z hz => h z (List.mem_cons_of_mem x hz)
      exact ⟨y :: ys, by rw [List.map_cons, List.map_cons, hy, hys]⟩

end SiteAtlas
