import Mathlib.Data.List.TakeWhile
import SiteAtlas.Text.Blank

/-!
# Blanks at the ends

Trimming leaves a part of a text, with blanks before and behind it, and leaves a text as it is if no
blank stands at its ends.
-/
namespace SiteAtlas.Text

/-- No blank stands at either end. -/
structure Trimmed (cs : List Char) : Prop where
  first : ∀ c ∈ cs.head?, isBlank c = false
  last : ∀ c ∈ cs.getLast?, isBlank c = false

theorem dropRight_isInfix {α : Type} (p : α → Bool) (cs : List α) : dropRight p cs <:+: cs :=
  List.IsPrefix.isInfix <| dropRight_prefix p cs

theorem trim_isInfix (cs : List Char) : trim cs <:+: cs :=
  (dropRight_isInfix isBlank _).trans (List.dropWhile_suffix isBlank).isInfix

theorem dropRight_eq_nil {α : Type} {p : α → Bool} {cs : List α} (h : ∀ c ∈ cs, p c = true) :
    dropRight p cs = [] := by
  have hdrop : cs.reverse.dropWhile p = [] :=
    List.dropWhile_eq_nil_iff.2 fun c hc => h c (List.mem_reverse.1 hc)
  rw [dropRight, hdrop, List.reverse_nil]

/-- Of a front that ends in something to be kept, nothing is dropped with what follows it. -/
theorem dropRight_append_eq_self {α : Type} {p : α → Bool} {front cs : List α}
    (hfront : ∀ c ∈ front.getLast?, p c = false) (h : ∀ c ∈ cs, p c = true) :
    dropRight p (front ++ cs) = front := by
  rw [dropRight_append hfront, dropRight_eq_nil h, List.append_nil]

/-- What is dropped at the end was to be dropped. -/
theorem getLast?_dropRight {α : Type} {p : α → Bool} {cs : List α} :
    ∀ c ∈ (dropRight p cs).getLast?, p c = false := by
  intro c hc
  rw [dropRight, List.getLast?_reverse] at hc
  have hhead := List.head?_dropWhile_not p cs.reverse
  rw [Option.mem_def.1 hc] at hhead
  simpa using hhead

theorem trim_eq_self_iff {cs : List Char} : trim cs = cs ↔ Trimmed cs := by
  constructor
  · intro h
    have hdrop : cs.dropWhile isBlank = cs := by
      refine (List.dropWhile_suffix isBlank).eq_of_length_le ?_
      rw [trim] at h
      have hlength := (dropRight_isInfix isBlank (cs.dropWhile isBlank)).length_le
      rwa [h] at hlength
    constructor
    · intro c hc
      have hhead := List.head?_dropWhile_not isBlank cs
      rw [hdrop, Option.mem_def.1 hc] at hhead
      simpa using hhead
    · rw [← h, trim]
      exact getLast?_dropRight
  · intro h
    have hdrop : cs.dropWhile isBlank = cs := by
      cases cs with
      | nil => rfl
      | cons c cs => exact List.dropWhile_cons_of_neg (by simp [h.first c rfl])
    rw [trim, hdrop, dropRight_eq_self h.last]

/-- A text is its trimmed form between blanks. -/
theorem exists_around_trim (cs : List Char) :
    ∃ before after, cs = before ++ (trim cs ++ after) ∧
      (∀ c ∈ before, isBlank c = true) ∧ ∀ c ∈ after, isBlank c = true := by
  refine ⟨cs.takeWhile isBlank, ((cs.dropWhile isBlank).reverse.takeWhile
    isBlank).reverse, ?_, fun c hc => List.mem_takeWhile_imp hc, fun c hc => ?_⟩
  · rw [trim, dropRight_append_dropped, List.takeWhile_append_dropWhile]
  · exact List.mem_takeWhile_imp (List.mem_reverse.1 hc)

/-- Trimming starts behind the blanks at the front and ends at a character to be kept. -/
theorem trim_around {before front : List Char} {c : Char} (cs : List Char)
    (hbefore : ∀ b ∈ before, isBlank b = true) (hc : isBlank c = false)
    {kept : List Char} (hlast : ∀ b ∈ (c :: kept).getLast?, isBlank b = false) :
    trim (before ++ (front ++ (c :: kept ++ cs))) =
      front.dropWhile isBlank ++ (c :: kept ++ dropRight isBlank cs) := by
  have hfront : (before ++ (front ++ (c :: kept ++ cs))).dropWhile isBlank =
      front.dropWhile isBlank ++ (c :: kept ++ cs) := by
    rw [List.dropWhile_append_of_pos hbefore, List.dropWhile_append]
    split
    · rename_i hempty
      rw [List.isEmpty_iff.1 hempty, List.cons_append, List.dropWhile_cons_of_neg (by simp [hc]),
        List.nil_append]
    · rfl
  have hend : ∀ b ∈ (front.dropWhile isBlank ++ c :: kept).getLast?, isBlank b = false := by
    rw [List.getLast?_append, List.getLast?_cons, Option.some_or, ← List.getLast?_cons]
    exact hlast
  rw [trim, hfront, ← List.append_assoc, dropRight_append hend, List.append_assoc]

end SiteAtlas.Text
