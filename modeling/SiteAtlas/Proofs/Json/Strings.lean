import SiteAtlas.Json.Printer
import SiteAtlas.Json.Reader
import SiteAtlas.Proofs.Text.Utf8

/-!
# Strings read back

Each character of a printed string is read in one step: as itself, from an escape of two characters,
or from a control's code in hexadecimal. Hence the reader finds the closing quote, for all strings.
-/
namespace SiteAtlas.Json

open Utf8 (Bytes)

theorem hexValue?_hexDigit {n : Nat} (h : n < 16) : hexValue? (ascii (hexDigit n)) = some n := by
  have table : ∀ n, n < 16 → hexValue? (ascii (hexDigit n)) = some n := by decide
  exact table n h

theorem encodeChar_hexDigit {n : Nat} (h : n < 16) :
    Utf8.encodeChar (hexDigit n) = [ascii (hexDigit n)] := by
  have table : ∀ n, n < 16 → (hexDigit n).toNat < 0x80 := by decide
  exact Utf8.encodeChar_ascii (table n h)

/-- The code of a control is its character. -/
theorem unicodeEscape_hexDigit {n : Nat} (h : n < 0x20) (s : Bytes) :
    unicodeEscape (ascii '0' :: ascii '0' :: ascii (hexDigit (n / 16)) ::
      ascii (hexDigit (n % 16)) :: s) = .ok (Char.ofNat n, s) := by
  have hzero : hexValue? (ascii '0') = some 0 := by decide
  have hhigh := hexValue?_hexDigit (show n / 16 < 16 by omega)
  have hlow := hexValue?_hexDigit (show n % 16 < 16 by omega)
  have hquad : ((0 * 16 + 0) * 16 + n / 16) * 16 + n % 16 = n := by omega
  have h₁ : ¬ (0xdc00 ≤ n ∧ n ≤ 0xdfff) := by omega
  have h₂ : ¬ (0xd800 ≤ n ∧ n ≤ 0xdbff) := by omega
  simp only [unicodeEscape, hexQuad, hzero, hhigh, hlow, hquad, bind, Except.bind, if_neg h₁,
    if_neg h₂, pure, Except.pure]

/-- The first byte of a character that is no control is none either, and it is a quote or a
backslash only if the character is. -/
theorem front_encodeChar {c : Char} (h : 0x20 ≤ c.toNat) (hq : c ≠ '"') (hb : c ≠ '\\') :
    ∃ b r, Utf8.encodeChar c = b :: r ∧ b ≠ ascii '"' ∧ b ≠ ascii '\\' ∧ ¬ b < 0x20 := by
  cases he : Utf8.encodeChar c with
  | nil =>
    have hread := Utf8.decodeChar?_encodeChar c []
    rw [he] at hread
    cases hread
  | cons b r =>
    have hvalue : b.toNat = c.toNat ∨ 0x80 ≤ b.toNat :=
      Utf8.mem_encodeChar (he ▸ List.mem_cons_self)
    have other (d : Char) (hd : d.toNat < 0x80) (hne : c ≠ d) : b ≠ ascii d := by
      rintro rfl
      have hbyte : (ascii d).toNat = d.toNat := Utf8.toNat_toUInt8 (by omega)
      rw [hbyte] at hvalue
      rcases hvalue with hv | hv
      · exact hne (Char.toNat_inj.1 hv.symm)
      · omega
    refine ⟨b, r, rfl, other '"' (by decide) hq, other '\\' (by decide) hb, ?_⟩
    rw [UInt8.lt_iff_toNat_lt]
    change ¬ b.toNat < 0x20
    omega

theorem stringChars_raw {c : Char} (h : 0x20 ≤ c.toNat) (hq : c ≠ '"') (hb : c ≠ '\\')
    (x : UInt8) (fuel : Bytes) (done : List Char) (s : Bytes) :
    stringChars (x :: fuel) done (Utf8.encodeChar c ++ s) = stringChars fuel (c :: done) s := by
  obtain ⟨b, r, he, hquote, hslash, hlow⟩ := front_encodeChar h hq hb
  have hread := Utf8.decodeChar?_encodeChar c s
  rw [he, List.cons_append] at hread ⊢
  rw [stringChars, if_neg hquote, if_neg hslash, if_neg hlow, hread]

/-- One step of the reader undoes the escape of one character. -/
theorem stringChars_escapeChar (c : Char) (x : UInt8) (fuel : Bytes) (done : List Char)
    (s : Bytes) :
    stringChars (x :: fuel) done (Utf8.encode (escapeChar c) ++ s) =
      stringChars fuel (c :: done) s := by
  unfold escapeChar
  by_cases hq : c = '"'
  · subst hq; rfl
  by_cases hb : c = '\\'
  · subst hb; rfl
  rw [if_neg hq, if_neg hb]
  by_cases hraw : 0x20 ≤ c.toNat
  · rw [if_pos hraw, Utf8.encode_cons, Utf8.encode_nil, List.append_nil]
    exact stringChars_raw hraw hq hb x fuel done s
  rw [if_neg hraw]
  by_cases hn : c = '\n'
  · subst hn; rfl
  by_cases hr : c = '\r'
  · subst hr; rfl
  by_cases ht : c = '\t'
  · subst ht; rfl
  rw [if_neg hn, if_neg hr, if_neg ht]
  by_cases h8 : c.toNat = 8
  · obtain rfl : c = '\x08' := Char.toNat_inj.1 h8
    rfl
  by_cases h12 : c.toNat = 12
  · obtain rfl : c = '\x0c' := Char.toNat_inj.1 h12
    rfl
  rw [if_neg h8, if_neg h12]
  have hcode : Utf8.encode
      ['\\', 'u', '0', '0', hexDigit (c.toNat / 16), hexDigit (c.toNat % 16)] =
      [ascii '\\', ascii 'u', ascii '0', ascii '0', ascii (hexDigit (c.toNat / 16)),
        ascii (hexDigit (c.toNat % 16))] := by
    simp only [Utf8.encode_cons, Utf8.encode_nil,
      encodeChar_hexDigit (show c.toNat / 16 < 16 by omega),
      encodeChar_hexDigit (show c.toNat % 16 < 16 by omega)]
    rfl
  have hescape : escape (ascii 'u' :: ascii '0' :: ascii '0' ::
      ascii (hexDigit (c.toNat / 16)) :: ascii (hexDigit (c.toNat % 16)) :: s) = .ok (c, s) := by
    change unicodeEscape _ = _
    rw [unicodeEscape_hexDigit (by omega), Char.ofNat_toNat]
  have hquote : ascii '\\' ≠ ascii '"' := by decide
  simp only [hcode, List.cons_append, List.nil_append, stringChars, if_neg hquote, if_true,
    hescape]

/-- The printed characters of a string, then its closing quote. -/
theorem stringChars_flatMap (cs : List Char) (fuel : Bytes) (h : cs.length < fuel.length)
    (done : List Char) (s : Bytes) :
    stringChars fuel done (Utf8.encode (cs.flatMap escapeChar) ++ ascii '"' :: s) =
      .ok (done.reverse ++ cs, s) := by
  induction cs generalizing fuel done with
  | nil =>
    cases fuel with
    | nil => exact absurd h (Nat.not_lt_zero _)
    | cons x fuel =>
      rw [List.flatMap_nil, Utf8.encode_nil, List.nil_append, stringChars, if_pos rfl,
        List.append_nil]
  | cons c cs ih =>
    cases fuel with
    | nil => exact absurd h (Nat.not_lt_zero _)
    | cons x fuel =>
      have hlength : cs.length < fuel.length := Nat.lt_of_succ_lt_succ h
      rw [List.flatMap_cons, Utf8.encode_append, List.append_assoc, stringChars_escapeChar,
        ih fuel hlength, List.reverse_cons, List.append_assoc, List.singleton_append]

theorem encode_escapeChar_ne_nil (c : Char) : Utf8.encode (escapeChar c) ≠ [] := by
  intro h
  have hread := stringChars_escapeChar c 0 [0] [] [ascii '"']
  rw [h] at hread
  cases hread

/-- There are at least as many bytes as characters. -/
theorem length_le_encode_flatMap (cs : List Char) :
    cs.length ≤ (Utf8.encode (cs.flatMap escapeChar)).length := by
  induction cs with
  | nil => exact Nat.le_refl 0
  | cons c cs ih =>
    have hc := List.length_pos_iff.2 (encode_escapeChar_ne_nil c)
    rw [List.flatMap_cons, Utf8.encode_append, List.length_append, List.length_cons]
    omega

theorem encode_stringText (t : String) :
    Utf8.encode (stringText t) =
      ascii '"' :: (Utf8.encode (t.toList.flatMap escapeChar) ++ [ascii '"']) := by
  rw [stringText, List.cons_append, Utf8.encode_cons, Utf8.encode_append]
  rfl

/-- Every string reads back, behind its opening quote. -/
theorem string_flatMap (t : String) (s : Bytes) :
    string (Utf8.encode (t.toList.flatMap escapeChar) ++ ascii '"' :: s) = .ok (t, s) := by
  have hlength := length_le_encode_flatMap t.toList
  have hfuel : t.toList.length <
      (0 :: (Utf8.encode (t.toList.flatMap escapeChar) ++ ascii '"' :: s)).length := by
    rw [List.length_cons, List.length_append]
    omega
  rw [string, stringChars_flatMap t.toList _ hfuel]
  simp only [bind, Except.bind, List.reverse_nil, List.nil_append, String.ofList_toList, pure,
    Except.pure]

end SiteAtlas.Json
