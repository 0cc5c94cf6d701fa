import Mathlib.Data.List.Induction
import Mathlib.Data.List.TakeWhile
import SiteAtlas.Proofs.Json.Numbers

/-!
# Integers are read from their own texts

What has a fraction or an exponent is read as a float, and so is a zero with a sign. A leading zero
is refused. So the text from which an integer is read is the text that is printed for it.
-/
namespace SiteAtlas.Json

open Utf8 (Bytes)

/-- Decimal digits without a leading zero: a zero stands alone. -/
structure Numeral (ds : Bytes) : Prop where
  nonempty : ds ≠ []
  digits : ∀ d ∈ ds, isDigit d = true
  zero : ds.head? = some (ascii '0') → ds = [ascii '0']

theorem isDigit_iff {d : UInt8} : isDigit d = true ↔ 48 ≤ d.toNat ∧ d.toNat ≤ 57 := by
  rw [isDigit, Bool.and_eq_true, decide_eq_true_iff, decide_eq_true_iff, UInt8.le_iff_toNat_le,
    UInt8.le_iff_toNat_le]
  rfl

theorem encode_natDigits_digit {d : UInt8} (h : isDigit d = true) :
    Utf8.encode (natDigits (d.toNat - 48)) = [d] := by
  obtain ⟨hlow, hhigh⟩ := isDigit_iff.1 h
  have hlt : d.toNat - 48 < 10 := by omega
  have hchar : (Nat.digitChar (d.toNat - 48)).toNat = d.toNat := by
    rw [Nat.toNat_digitChar_of_lt_ten hlt]
    omega
  rw [encode_natDigits, natDigits, Nat.toDigits_of_lt_base hlt, List.map_singleton, ascii, hchar]
  exact congrArg (fun b => [b]) UInt8.ofNat_toNat

theorem digitsValue_concat (ds : Bytes) (d : UInt8) :
    digitsValue (ds ++ [d]) = digitsValue ds * 10 + (d.toNat - 48) := by
  simp [digitsValue]

/-- A numeral is what is printed for its value. -/
theorem Numeral.encode_natDigits {ds : Bytes} (h : Numeral ds) :
    Utf8.encode (natDigits (digitsValue ds)) = ds := by
  induction ds using List.reverseRecOn with
  | nil => exact absurd rfl h.nonempty
  | append_singleton ds d ih =>
    have hd : isDigit d = true := h.digits d (by simp)
    obtain rfl | hne := eq_or_ne ds []
    · simpa [digitsValue] using encode_natDigits_digit hd
    · -- a zero would stand alone, so the digits in front of the last one do not start with one
      have hhead : ds.head? ≠ some (ascii '0') := by
        intro hzero
        have hall := h.zero (by rw [List.head?_append, hzero]; rfl)
        have hlength := congrArg List.length hall
        simp [hne] at hlength
      have hfront := ih ⟨hne, fun e he => h.digits e (List.mem_append_left _ he),
        fun hzero => absurd hzero hhead⟩
      have hpos : 0 < digitsValue ds := by
        refine Nat.pos_of_ne_zero fun hzero => hhead ?_
        rw [hzero] at hfront
        rw [← hfront]
        rfl
      have hlt : d.toNat - 48 < 10 := by
        have := isDigit_iff.1 hd
        omega
      have hdigits : natDigits (digitsValue ds * 10 + (d.toNat - 48)) =
          natDigits (digitsValue ds) ++ natDigits (d.toNat - 48) := by
        rw [natDigits, Nat.mul_comm, ← Nat.toDigits_append_toDigits (by decide) hpos hlt]
        rfl
      rw [digitsValue_concat, hdigits, Utf8.encode_append, hfront, encode_natDigits_digit hd]

variable {negative : Bool} {n : Int} {rest : Bytes}

/-- What has a fraction is a float. -/
theorem float_of_decimalNumber {size : Decimal.Scientific} {s : Bytes} {j : Json}
    (h : afterDigits.decimalNumber negative size s = .ok (j, rest)) :
    ∃ x, j = .float x := by
  unfold afterDigits.decimalNumber at h
  grind [stopAt]

/-- What has an exponent is a float. -/
theorem float_of_exponentDigits {size : Decimal.Scientific} {down : Bool} {s : Bytes} {j : Json}
    (h : exponentDigits negative size down s = .ok (j, rest)) : ∃ x, j = .float x := by
  unfold exponentDigits at h
  grind [stopAt]

theorem float_of_exponentPart {size : Decimal.Scientific} {s : Bytes} {j : Json}
    (h : exponentPart negative size s = .ok (j, rest)) : ∃ x, j = .float x := by
  unfold exponentPart at h
  grind [stopAt, float_of_exponentDigits]

/-- Behind the digits of an integer there is neither a fraction nor an exponent. -/
theorem afterDigits_eq_int {whole s : Bytes}
    (h : afterDigits negative whole s = .ok (.int n, rest)) :
    s = rest ∧ wholeNumber? negative whole = some (.int n) := by
  have plain {s : Bytes} (h : afterDigits.plainNumber negative whole s = .ok (.int n, rest)) :
      s = rest ∧ wholeNumber? negative whole = some (.int n) := by
    rw [afterDigits.plainNumber] at h
    split at h
    · rename_i j hj
      cases h
      exact ⟨rfl, hj⟩
    · cases h
  have hfloat : ¬∃ x, Json.int n = .float x := by
    rintro ⟨x, hx⟩
    cases hx
  unfold afterDigits at h
  split at h
  · exact plain h
  · split at h
    · dsimp only at h
      split at h
      · split at h <;> cases h
      · split at h
        · split at h
          · exact absurd (float_of_exponentPart h) hfloat
          · exact absurd (float_of_decimalNumber h) hfloat
        · exact absurd (float_of_decimalNumber h) hfloat
    · split at h
      · exact absurd (float_of_exponentPart h) hfloat
      · exact plain h

/-- A numeral is taken as a whole if no digit follows it. -/
theorem unsigned_append {whole more : Bytes} (h : Numeral whole) (hmore : NoDigit more) :
    unsigned negative (whole ++ more) = afterDigits negative whole more := by
  obtain ⟨b, ds, rfl⟩ := List.exists_cons_of_ne_nil h.nonempty
  have hb : isDigit b = true := h.digits b List.mem_cons_self
  by_cases hzero : b = ascii '0'
  · obtain rfl : ds = [] := (List.cons.inj (h.zero (congrArg some hzero))).2
    cases more with
    | nil => simp only [unsigned, List.append_nil, if_pos hzero]
    | cons d more =>
      have hd : isDigit d = false := hmore d rfl
      simp only [unsigned, List.cons_append, List.nil_append, if_pos hzero, hd, Bool.false_eq_true,
        if_false]
  · obtain ⟨htake, hdrop⟩ := takeWhile_digits h.digits hmore
    rw [List.cons_append] at htake hdrop ⊢
    simp only [unsigned, if_neg hzero, hb, if_true, htake, hdrop]

theorem noDigit_dropWhile (s : Bytes) : NoDigit (s.dropWhile isDigit) := by
  intro b hb
  have hhead := List.head?_dropWhile_not isDigit s
  rw [Option.mem_def.1 hb] at hhead
  simpa using hhead

/-- A number that is read begins with a numeral. -/
theorem exists_numeral {s : Bytes} {p : Parsed Json} (h : unsigned negative s = .ok p) :
    ∃ whole more, s = whole ++ more ∧ Numeral whole ∧ NoDigit more := by
  unfold unsigned at h
  split at h
  · cases h
  · rename_i b r
    have lone (hb : b = ascii '0') (hr : NoDigit r) :
        ∃ whole more, b :: r = whole ++ more ∧ Numeral whole ∧ NoDigit more := by
      subst hb
      exact ⟨[ascii '0'], r, rfl, ⟨by simp, List.forall_mem_singleton.2 rfl, fun _ => rfl⟩, hr⟩
    split at h
    · rename_i hb
      split at h
      · rename_i d _
        cases hd : isDigit d with
        | true => simp [hd, stopPast] at h
        | false =>
          refine lone hb ?_
          rintro _ ⟨⟩
          exact hd
      · exact lone hb fun _ h => by cases h
    · rename_i hb
      split at h
      · rename_i hdigit
        have hhead : ((b :: r).takeWhile isDigit).head? = some b := by simp [hdigit]
        refine ⟨(b :: r).takeWhile isDigit, (b :: r).dropWhile isDigit,
          List.takeWhile_append_dropWhile.symm, ⟨?_, fun d => List.mem_takeWhile_imp, fun hzero => ?_⟩,
          noDigit_dropWhile _⟩
        · intro hnil
          rw [hnil] at hhead
          cases hhead
        · rw [hhead] at hzero
          exact absurd (Option.some.inj hzero) hb
      · cases h

/-- All digits of an integer are read, and they are a numeral. -/
theorem unsigned_eq_int {s : Bytes} (h : unsigned negative s = .ok (.int n, rest)) :
    ∃ ds, Numeral ds ∧ s = ds ++ rest ∧
      wholeNumber? negative ds = some (.int n) := by
  obtain ⟨whole, more, rfl, hwhole, hmore⟩ := exists_numeral h
  rw [unsigned_append hwhole hmore] at h
  obtain ⟨rfl, hvalue⟩ := afterDigits_eq_int h
  exact ⟨whole, hwhole, rfl, hvalue⟩

theorem wholeNumber?_eq_int {whole : Bytes} (h : wholeNumber? negative whole = some (.int n)) :
    if negative then 0 < digitsValue whole ∧ n = -(digitsValue whole : Int)
    else n = digitsValue whole := by
  have hfloat : ((decimal whole []).quick? negative).map Json.float ≠ some (.int n) := by
    simp
  cases negative with
  | true =>
    simp only [wholeNumber?, if_true] at h ⊢
    split at h
    · rename_i hfits
      cases h
      exact ⟨hfits.1, rfl⟩
    · exact absurd h hfloat
  | false =>
    simp only [wholeNumber?, Bool.false_eq_true, if_false] at h ⊢
    split at h
    · cases h
      rfl
    · exact absurd h hfloat

/-- An integer is read from its own text only. -/
theorem number_eq_int {s : Bytes} (h : number s = .ok (.int n, rest)) :
    s = Utf8.encode (intText n) ++ rest := by
  have plain {s : Bytes} (h : unsigned false s = .ok (.int n, rest)) :
      s = Utf8.encode (intText n) ++ rest := by
    obtain ⟨ds, hds, rfl, hvalue⟩ := unsigned_eq_int h
    obtain rfl : n = digitsValue ds := wholeNumber?_eq_int hvalue
    exact congrArg (· ++ rest) hds.encode_natDigits.symm
  unfold number at h
  split at h
  · rename_i b r
    split at h
    · rename_i hminus
      obtain ⟨ds, hds, rfl, hvalue⟩ := unsigned_eq_int h
      obtain ⟨hpos, rfl⟩ : 0 < digitsValue ds ∧ n = -(digitsValue ds : Int) :=
        wholeNumber?_eq_int hvalue
      obtain ⟨k, hk⟩ := Nat.exists_eq_succ_of_ne_zero (Nat.ne_of_gt hpos)
      have htext : Utf8.encode (intText (-(digitsValue ds : Int))) = ascii '-' :: ds := by
        rw [hk, Int.natCast_succ, ← Int.negSucc_eq, intText, ← hds.encode_natDigits, hk]
        rfl
      rw [htext, hminus]
      rfl
    · exact plain h
  · exact plain h

end SiteAtlas.Json
