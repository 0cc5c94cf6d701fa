import SiteAtlas.Json.Printer
import SiteAtlas.Json.Reader
import SiteAtlas.Proofs.Text.Utf8

/-!
# Integers read back

The reader takes all digits of a printed integer, and nothing else of a text in which no byte behind
the digits goes on with the number. Their value is the integer, for all integers of the wire.
-/
namespace SiteAtlas.Json

open Utf8 (Bytes)

/-- No byte at the front goes on with a number. -/
def EndsNumber : Bytes → Prop
  | [] => True
  | b :: _ => isDigit b = false ∧ b ≠ ascii '.' ∧ b ≠ ascii 'e' ∧ b ≠ ascii 'E'

theorem encode_eq_map_ascii {cs : List Char} (h : ∀ c ∈ cs, c.toNat < 0x80) :
    Utf8.encode cs = cs.map ascii := by
  induction cs with
  | nil => rfl
  | cons c cs ih =>
    rw [Utf8.encode_cons, Utf8.encodeChar_ascii (h c List.mem_cons_self),
      ih fun d hd => h d (List.mem_cons_of_mem _ hd)]
    rfl

theorem toNat_of_isDigit {c : Char} (h : c.isDigit = true) : 48 ≤ c.toNat ∧ c.toNat ≤ 57 :=
  Char.isDigit_iff_toNat.1 h

theorem toNat_ascii {c : Char} (h : c.isDigit = true) : (ascii c).toNat = c.toNat := by
  have hc := toNat_of_isDigit h
  exact Utf8.toNat_toUInt8 (by omega)

theorem isDigit_ascii {c : Char} (h : c.isDigit = true) : isDigit (ascii c) = true := by
  have hc := toNat_of_isDigit h
  rw [isDigit, Bool.and_eq_true, decide_eq_true_iff, decide_eq_true_iff, UInt8.le_iff_toNat_le,
    UInt8.le_iff_toNat_le, toNat_ascii h]
  exact hc

theorem isDigit_of_mem_natDigits {n : Nat} {c : Char} (h : c ∈ natDigits n) : c.isDigit = true :=
  Nat.isDigit_of_mem_toDigits (by decide) (by decide) h

theorem encode_natDigits (n : Nat) : Utf8.encode (natDigits n) = (natDigits n).map ascii := by
  refine encode_eq_map_ascii fun c hc => ?_
  have hd := toNat_of_isDigit (isDigit_of_mem_natDigits hc)
  omega

theorem isDigit_of_mem_encode_natDigits {n : Nat} {b : UInt8}
    (h : b ∈ Utf8.encode (natDigits n)) : isDigit b = true := by
  rw [encode_natDigits] at h
  obtain ⟨c, hc, rfl⟩ := List.mem_map.1 h
  exact isDigit_ascii (isDigit_of_mem_natDigits hc)

theorem foldl_ascii (cs : List Char) (h : ∀ c ∈ cs, c.isDigit = true) (n : Nat) :
    (cs.map ascii).foldl (fun n d => n * 10 + (d.toNat - 48)) n = Nat.ofDigitChars 10 cs n := by
  induction cs generalizing n with
  | nil => rw [List.map_nil, List.foldl_nil, Nat.ofDigitChars_nil]
  | cons c cs ih =>
    have hc : (ascii c).toNat = c.toNat := toNat_ascii (h c List.mem_cons_self)
    rw [List.map_cons, List.foldl_cons, hc, Nat.ofDigitChars_cons, Nat.mul_comm n 10]
    exact ih (fun d hd => h d (List.mem_cons_of_mem _ hd)) _

theorem digitsValue_encode_natDigits (n : Nat) : digitsValue (Utf8.encode (natDigits n)) = n := by
  rw [encode_natDigits, digitsValue,
    foldl_ascii _ (fun c hc => isDigit_of_mem_natDigits hc), natDigits]
  exact Nat.ofDigitChars_ten_toDigits

/-- Only zero starts with a zero. -/
theorem natDigits_eq_zero {n : Nat} {cs : List Char} (h : natDigits n = '0' :: cs) : cs = [] := by
  induction n using Nat.strongRecOn generalizing cs with
  | ind n ih =>
    by_cases hn : n < 10
    · rw [natDigits, Nat.toDigits_of_lt_base hn] at h
      exact (List.cons.inj h).2.symm
    · rw [natDigits, Nat.toDigits_of_base_le (by decide) (Nat.not_lt.1 hn)] at h
      cases hd : natDigits (n / 10) with
      | nil => exact absurd hd Nat.toDigits_ne_nil
      | cons d ds =>
        have hd' : Nat.toDigits 10 (n / 10) = d :: ds := hd
        rw [hd', List.cons_append] at h
        obtain ⟨rfl, -⟩ := List.cons.inj h
        -- the front would be the lone zero of a smaller number, which is at least one
        obtain rfl := ih (n / 10) (by omega) hd
        have hv : Nat.ofDigitChars 10 (natDigits (n / 10)) 0 = n / 10 :=
          Nat.ofDigitChars_ten_toDigits
        rw [hd, Nat.ofDigitChars_cons, Nat.ofDigitChars_nil] at hv
        have : (0 : Nat) = n / 10 := hv
        omega

def NoDigit (s : Bytes) : Prop := ∀ b ∈ s.head?, isDigit b = false

theorem NoDigit.of_ends {s : Bytes} (h : EndsNumber s) : NoDigit s := by
  cases s with
  | nil => exact nofun
  | cons b s =>
    rintro _ ⟨⟩
    exact h.1

/-- Digits are taken up to the first byte that is none. -/
theorem takeWhile_digits {ds rest : Bytes} (hd : ∀ b ∈ ds, isDigit b = true) (hr : NoDigit rest) :
    (ds ++ rest).takeWhile isDigit = ds ∧ (ds ++ rest).dropWhile isDigit = rest := by
  have hrest : rest.takeWhile isDigit = [] ∧ rest.dropWhile isDigit = rest := by
    cases rest with
    | nil => exact ⟨rfl, rfl⟩
    | cons b r =>
      have hb := hr b rfl
      exact ⟨List.takeWhile_cons_of_neg (by simp [hb]), List.dropWhile_cons_of_neg (by simp [hb])⟩
  constructor
  · rw [List.takeWhile_append_of_pos hd, hrest.1, List.append_nil]
  · rw [List.dropWhile_append_of_pos hd, hrest.2]

theorem afterDigits_of_endsNumber (negative : Bool) (whole : Bytes) {rest : Bytes}
    (hr : EndsNumber rest) :
    afterDigits negative whole rest = afterDigits.plainNumber negative whole rest := by
  cases rest with
  | nil => rfl
  | cons b r =>
    obtain ⟨-, hpoint, he, hE⟩ := hr
    simp only [afterDigits, if_neg hpoint, he, hE, decide_eq_true_eq, or_self, if_false,
      Bool.or_eq_true]

/-- All digits of a number are read, and no more. -/
theorem unsigned_natDigits (negative : Bool) (n : Nat) {rest : Bytes} (hr : EndsNumber rest) :
    unsigned negative (Utf8.encode (natDigits n) ++ rest) =
      afterDigits.plainNumber negative (Utf8.encode (natDigits n)) rest := by
  cases hds : Utf8.encode (natDigits n) with
  | nil =>
    rw [encode_natDigits] at hds
    exact absurd (List.map_eq_nil_iff.1 hds) Nat.toDigits_ne_nil
  | cons b r =>
    have hall : ∀ c ∈ b :: r, isDigit c = true := by
      rw [← hds]
      exact fun c => isDigit_of_mem_encode_natDigits
    have hb : isDigit b = true := hall b List.mem_cons_self
    by_cases hzero : b = ascii '0'
    · have hr' : r = [] := by
        rw [encode_natDigits] at hds
        obtain ⟨c, cs, hcs, hc, rfl⟩ := List.map_eq_cons_iff.1 hds
        have hc' : c = '0' := by
          have hd : c.isDigit = true :=
            isDigit_of_mem_natDigits (n := n) (hcs ▸ List.mem_cons_self)
          have hn : (ascii c).toNat = (ascii '0').toNat := by rw [hc, hzero]
          rw [toNat_ascii hd] at hn
          exact Char.toNat_inj.1 hn
        subst hc'
        rw [natDigits_eq_zero hcs, List.map_nil]
      subst hr'
      rw [← afterDigits_of_endsNumber negative [b] hr]
      cases rest with
      | nil => simp only [unsigned, List.cons_append, List.nil_append, if_pos hzero]
      | cons d rest =>
        simp only [unsigned, List.cons_append, List.nil_append, if_pos hzero, hr.1,
          Bool.false_eq_true, if_false]
    · obtain ⟨htake, hdrop⟩ := takeWhile_digits hall (.of_ends hr)
      rw [List.cons_append] at htake hdrop ⊢
      rw [← afterDigits_of_endsNumber negative (b :: r) hr]
      simp only [unsigned, if_neg hzero, hb, if_true, htake, hdrop]

/-- Every integer of the wire reads back. -/
theorem number_intText {n : Int} (h : IntFits n) {rest : Bytes} (hr : EndsNumber rest) :
    number (Utf8.encode (intText n) ++ rest) = .ok (.int n, rest) := by
  cases n with
  | ofNat n =>
    have hn : n < 18446744073709551616 := by
      have := h.2
      simp only [Int.ofNat_eq_natCast] at this
      omega
    have hfirst : number (Utf8.encode (natDigits n) ++ rest) =
        unsigned false (Utf8.encode (natDigits n) ++ rest) := by
      cases hds : Utf8.encode (natDigits n) with
      | nil =>
        rw [encode_natDigits] at hds
        exact absurd (List.map_eq_nil_iff.1 hds) Nat.toDigits_ne_nil
      | cons b r =>
        have hb : isDigit b = true :=
          isDigit_of_mem_encode_natDigits (n := n) (hds ▸ List.mem_cons_self)
        have hminus : b ≠ ascii '-' := by
          rintro rfl
          exact absurd hb (by decide)
        simp only [number, List.cons_append, if_neg hminus]
    rw [intText, hfirst, unsigned_natDigits false n hr, afterDigits.plainNumber]
    simp only [wholeNumber?, digitsValue_encode_natDigits, Bool.false_eq_true, if_false, if_pos hn]
    rfl
  | negSucc n =>
    have hn : 0 < n + 1 ∧ n + 1 ≤ 9223372036854775808 := by
      have := h.1
      omega
    have hfirst : number (Utf8.encode (intText (.negSucc n)) ++ rest) =
        unsigned true (Utf8.encode (natDigits (n + 1)) ++ rest) := rfl
    rw [hfirst, unsigned_natDigits true (n + 1) hr, afterDigits.plainNumber]
    simp only [wholeNumber?, digitsValue_encode_natDigits, if_true, if_pos hn]
    rfl

end SiteAtlas.Json
