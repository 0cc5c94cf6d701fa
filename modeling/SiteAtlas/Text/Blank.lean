/-!
Blanks: the characters with the Unicode property White_Space, and texts without blanks at the ends.
-/
namespace SiteAtlas.Text

/-- The Unicode property White_Space. -/
def isBlank (c : Char) : Bool :=
  let n := c.toNat
  (0x09 ≤ n && n ≤ 0x0d) || n == 0x20 || n == 0x85 || n == 0xa0 || n == 0x1680 ||
    (0x2000 ≤ n && n ≤ 0x200a) || n == 0x2028 || n == 0x2029 || n == 0x202f || n == 0x205f ||
    n == 0x3000

def dropRight {α : Type} (p : α → Bool) (cs : List α) : List α :=
  (cs.reverse.dropWhile p).reverse

def trim (cs : List Char) : List Char := dropRight isBlank (cs.dropWhile isBlank)

@[simp] theorem dropRight_nil {α : Type} (p : α → Bool) : dropRight p [] = [] := rfl

/-- Dropping at the end leaves a front part. -/
theorem dropRight_append_dropped {α : Type} (p : α → Bool) (cs : List α) :
    dropRight p cs ++ (cs.reverse.takeWhile p).reverse = cs := by
  have h : cs.reverse.takeWhile p ++ cs.reverse.dropWhile p = cs.reverse :=
    List.takeWhile_append_dropWhile
  calc dropRight p cs ++ (cs.reverse.takeWhile p).reverse
      = (cs.reverse.takeWhile p ++ cs.reverse.dropWhile p).reverse := by
        rw [List.reverse_append, dropRight]
    _ = cs := by rw [h, List.reverse_reverse]

theorem dropRight_prefix {α : Type} (p : α → Bool) (cs : List α) : dropRight p cs <+: cs :=
  ⟨_, dropRight_append_dropped p cs⟩

/-- What is dropped at the end is not taken from a front that ends in something to be kept. -/
theorem dropRight_append {α : Type} {p : α → Bool} {front : List α}
    (h : ∀ c ∈ front.getLast?, p c = false) (cs : List α) :
    dropRight p (front ++ cs) = front ++ dropRight p cs := by
  have hfront : front.reverse.dropWhile p = front.reverse := by
    rw [← List.head?_reverse] at h
    cases hrev : front.reverse with
    | nil => rfl
    | cons c rest => exact List.dropWhile_cons_of_neg (by simp [h c (by rw [hrev]; rfl)])
  rw [dropRight, List.reverse_append, List.dropWhile_append, hfront, dropRight]
  split
  · rename_i hempty
    simp [List.isEmpty_iff.1 hempty]
  · simp

theorem dropRight_eq_self {α : Type} {p : α → Bool} {cs : List α}
    (h : ∀ c ∈ cs.getLast?, p c = false) : dropRight p cs = cs := by
  simpa using dropRight_append h []

/-- Text without blanks is not trimmed, whatever follows it. -/
theorem trim_append {front : List Char} (hne : front ≠ []) (h : ∀ c ∈ front, isBlank c = false)
    (cs : List Char) : trim (front ++ cs) = front ++ dropRight isBlank cs := by
  have hhead : (front ++ cs).dropWhile isBlank = front ++ cs := by
    cases front with
    | nil => exact absurd rfl hne
    | cons c front => exact List.dropWhile_cons_of_neg (by simp [h c])
  rw [trim, hhead, dropRight_append fun c hc => h c (List.mem_of_getLast? hc)]

end SiteAtlas.Text
