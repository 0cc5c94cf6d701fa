import SiteAtlas.Json.Printer

/-!
# Printed values hold no controls

Every character of a printed value is at or above the blank, for all values: whatever stands in a
text or in a key, at any depth, and however a float is laid out.
-/
namespace SiteAtlas

def NoControls (cs : List Char) : Prop := ∀ c ∈ cs, 0x20 ≤ c.toNat

instance (cs : List Char) : Decidable (NoControls cs) :=
  List.decidableBAll (fun c : Char => 0x20 ≤ c.toNat) cs

namespace NoControls

theorem nil : NoControls [] := by intro c hc; cases hc

theorem cons {c : Char} {cs : List Char} (hc : 0x20 ≤ c.toNat) (h : NoControls cs) :
    NoControls (c :: cs) := List.forall_mem_cons.2 ⟨hc, h⟩

theorem append {cs ds : List Char} (h : NoControls cs) (h' : NoControls ds) :
    NoControls (cs ++ ds) := List.forall_mem_append.2 ⟨h, h'⟩

theorem flatMap {α : Type} {f : α → List Char} {xs : List α} (h : ∀ x ∈ xs, NoControls (f x)) :
    NoControls (xs.flatMap f) := by
  intro c hc
  obtain ⟨x, hx, hc⟩ := List.mem_flatMap.1 hc
  exact h x hx c hc

theorem sublist {cs ds : List Char} (h : NoControls ds) (hs : cs.Sublist ds) : NoControls cs :=
  fun c hc => h c (hs.subset hc)

theorem replicate (n : Nat) {c : Char} (hc : 0x20 ≤ c.toNat) : NoControls (List.replicate n c) := by
  intro d hd
  rw [List.eq_of_mem_replicate hd]
  exact hc

theorem digits (n : Nat) : NoControls (Nat.toDigits 10 n) := by
  intro c hc
  have hd : c.isDigit = true := Nat.isDigit_of_mem_toDigits (by decide) (by decide) hc
  have hlow : 48 ≤ c.toNat := (Char.isDigit_iff_toNat.1 hd).1
  omega

end NoControls

namespace Decimal

theorem noControls_toString_nat (n : Nat) : NoControls (toString n).toList := by
  rw [Nat.toString_eq_ofList_toDigits, String.toList_ofList]
  exact .digits n

theorem noControls_toString_int (n : Int) : NoControls (toString n).toList := by
  cases n with
  | ofNat n => exact noControls_toString_nat n
  | negSucc n =>
    change NoControls ("-" ++ toString (n + 1)).toList
    rw [String.toList_append]
    exact .append (by decide) (noControls_toString_nat (n + 1))

theorem noControls_positional {layout : Layout} {digits : String} (exponent : Int)
    (hm : NoControls layout.wholeMark.toList) (hd : NoControls digits.toList) :
    NoControls (positional layout digits exponent).toList := by
  have zeros (n : Nat) : NoControls (List.replicate n '0') := .replicate n (by decide)
  unfold positional
  simp only
  split
  · simp only [String.toList_append, String.toList_ofList]
    exact .append (.append hd (zeros _)) hm
  split
  · simp only [String.toList_append, String.toList_ofList]
    exact .append (.append (hd.sublist (List.take_sublist _ _)) (by decide))
      (hd.sublist (List.drop_sublist _ _))
  · simp only [String.toList_append, String.toList_ofList]
    exact .append (.append (by decide) (zeros _)) hd

theorem noControls_scientific {layout : Layout} {digits : String} (leading : Int)
    (hp : NoControls layout.plus.toList) (hd : NoControls digits.toList) :
    NoControls (scientific layout digits leading).toList := by
  unfold scientific
  simp only [String.toList_append]
  refine .append (.append (.append ?_ (by decide)) ?_) (noControls_toString_int leading)
  · split
    · decide
    · rename_i d h
      rw [String.toList_ofList, ← h]
      exact hd
    · rename_i d rest _ h
      rw [h] at hd
      rw [String.toList_ofList]
      exact .cons (hd d List.mem_cons_self)
        (.cons (by decide) fun c hc => hd c (List.mem_cons_of_mem _ hc))
  · split
    · exact hp
    · exact .nil

/-- A double in a layout whose own marks hold no controls. -/
theorem noControls_write {layout : Layout} (x : Float)
    (hm : NoControls layout.wholeMark.toList) (hp : NoControls layout.plus.toList) :
    NoControls (write layout x).toList := by
  have sign (negative : Bool) : NoControls (signText negative).toList := by
    cases negative <;> decide
  have digits (s : Scientific) : NoControls (s.write layout).toList := by
    have hd := noControls_toString_nat s.digits
    unfold Scientific.write
    simp only
    split
    · exact noControls_positional _ hm hd
    · exact noControls_scientific _ hp hd
  unfold write
  split
  · decide
  · rw [String.toList_append]
    exact .append (sign _) (by decide)
  · rw [String.toList_append]
    refine .append (sign _) ?_
    split <;> exact digits _

end Decimal

namespace Json

theorem noControls_intText (n : Int) : NoControls (intText n) := by
  cases n with
  | ofNat n => exact .digits n
  | negSucc n => exact .cons (by decide) (.digits (n + 1))

theorem noControls_floatText (x : Float) : NoControls (floatText x) := by
  unfold floatText
  split
  · exact Decimal.noControls_write x (by decide) (by decide)
  · decide

theorem le_toNat_hexDigit {n : Nat} (h : n < 16) : 0x20 ≤ (hexDigit n).toNat := by
  have table : ∀ n, n < 16 → 0x20 ≤ (hexDigit n).toNat := by decide
  exact table n h

/-- A control is written with other characters only. -/
theorem noControls_escapeChar (c : Char) : NoControls (escapeChar c) := by
  unfold escapeChar
  split
  · decide
  split
  · decide
  split
  · rename_i h
    exact .cons h .nil
  rename_i h
  split
  · decide
  split
  · decide
  split
  · decide
  split
  · decide
  split
  · decide
  · have hhigh : 0x20 ≤ (hexDigit (c.toNat / 16)).toNat := le_toNat_hexDigit (by omega)
    have hlow : 0x20 ≤ (hexDigit (c.toNat % 16)).toNat := le_toNat_hexDigit (by omega)
    have hmark : NoControls ['\\', 'u', '0', '0'] := by decide
    exact hmark.append (.cons hhigh (.cons hlow .nil))

theorem noControls_stringText (s : String) : NoControls (stringText s) :=
  .append (.cons (by decide) (.flatMap fun c _ => noControls_escapeChar c)) (by decide)

mutual

/-- No printed value holds a control. -/
theorem noControls_chars : ∀ j : Json, NoControls j.chars
  | .null => by simp only [chars]; decide
  | .bool true => by simp only [chars]; decide
  | .bool false => by simp only [chars]; decide
  | .int n => noControls_intText n
  | .float x => noControls_floatText x
  | .text s => noControls_stringText s
  | .list [] => by simp only [chars]; decide
  | .list (j :: rest) => by
    simp only [chars]
    exact .cons (by decide) (.append (noControls_chars j) (noControls_itemsChars rest))
  | .object [] => by simp only [chars]; decide
  | .object ((k, j) :: rest) => by
    simp only [chars]
    have hj := NoControls.append (noControls_chars j) (noControls_membersChars rest)
    exact .cons (by decide) (.append (noControls_stringText k) (.cons (by decide) hj))

theorem noControls_itemsChars : ∀ js : List Json, NoControls (itemsChars js)
  | [] => by simp only [itemsChars]; decide
  | j :: rest => by
    simp only [itemsChars]
    exact .cons (by decide) (.append (noControls_chars j) (noControls_itemsChars rest))

theorem noControls_membersChars : ∀ ms : List (String × Json), NoControls (membersChars ms)
  | [] => by simp only [membersChars]; decide
  | (k, j) :: rest => by
    simp only [membersChars]
    have hj := NoControls.append (noControls_chars j) (noControls_membersChars rest)
    exact .cons (by decide) (.append (noControls_stringText k) (.cons (by decide) hj))

end

end Json

end SiteAtlas
