import SiteAtlas.Proofs.Accepted
import SiteAtlas.Proofs.Json.Numbers
import SiteAtlas.Proofs.Time.Calendar
import SiteAtlas.Time.Instant

/-!
# Instants read back from their texts

An instant is read back from its date and time with any offset, to the nanosecond and with its leap
second, if its year at that offset has four digits. A year with a sign in front is refused.
-/
namespace SiteAtlas.Time

open Utf8 (Bytes)
open Json (ascii)

theorem isDigit_of_mem_padded {width n : Nat} {c : Char} (h : c ∈ padded width n) :
    c.isDigit = true := by
  rw [padded] at h
  rcases List.mem_append.1 h with h | h
  · obtain rfl := List.eq_of_mem_replicate h
    rfl
  · exact Nat.isDigit_of_mem_toDigits (by decide) (by decide) h

theorem length_padded {width n : Nat} (hwidth : 0 < width) (h : n < 10 ^ width) :
    (padded width n).length = width := by
  have hdigits : (Nat.toDigits 10 n).length ≤ width :=
    (Nat.length_toDigits_le_iff (by decide) hwidth).2 h
  simp only [padded, List.length_append, List.length_replicate]
  omega

/-- Zeros in front do not change the value. -/
theorem ofDigitChars_padded (width n : Nat) : Nat.ofDigitChars 10 (padded width n) 0 = n := by
  rw [padded, Nat.ofDigitChars_append, Nat.ofDigitChars_replicate_zero, Nat.mul_zero,
    Nat.ofDigitChars_ten_toDigits]

theorem encode_padded (width n : Nat) :
    Utf8.encode (padded width n) = (padded width n).map ascii := by
  refine Json.encode_eq_map_ascii fun c hc => ?_
  have hd := Json.toNat_of_isDigit (isDigit_of_mem_padded hc)
  omega

theorem length_encode_padded {width n : Nat} (hwidth : 0 < width) (h : n < 10 ^ width) :
    (Utf8.encode (padded width n)).length = width := by
  rw [encode_padded, List.length_map, length_padded hwidth h]

theorem digit_ascii {c : Char} (h : c.isDigit = true) (s : Bytes) :
    digit (ascii c :: s) = .ok (c.toNat - 48, s) := by
  have hd : isDigit (ascii c) = true := Json.isDigit_ascii h
  simp only [digit, hd, if_true, Json.toNat_ascii h]

theorem twoDigits_ascii {a b : Char} (ha : a.isDigit = true) (hb : b.isDigit = true) (s : Bytes) :
    twoDigits (ascii a :: ascii b :: s) = .ok (Nat.ofDigitChars 10 [a, b] 0, s) := by
  simp [twoDigits, digit_ascii ha, digit_ascii hb, bind, Except.bind, pure, Except.pure,
    Nat.ofDigitChars_cons]

/-- A number below a hundred has two digits. -/
theorem padded_two {n : Nat} (h : n < 100) : ∃ a b : Char, padded 2 n = [a, b] ∧
    a.isDigit = true ∧ b.isDigit = true ∧ Nat.ofDigitChars 10 [a, b] 0 = n := by
  have hdigits : ∀ c ∈ padded 2 n, c.isDigit = true := fun c => isDigit_of_mem_padded
  have hvalue := ofDigitChars_padded 2 n
  match hcs : padded 2 n, length_padded (n := n) (by decide) h with
  | [a, b], _ =>
    rw [hcs] at hdigits hvalue
    exact ⟨a, b, rfl, hdigits a (by simp), hdigits b (by simp), hvalue⟩

theorem twoDigits_padded {n : Nat} (h : n < 100) (s : Bytes) :
    twoDigits (Utf8.encode (padded 2 n) ++ s) = .ok (n, s) := by
  obtain ⟨a, b, hcs, ha, hb, hvalue⟩ := padded_two h
  rw [encode_padded, hcs, ← hvalue]
  exact twoDigits_ascii ha hb s

theorem offsetDigits_padded {n : Nat} (h : n < 100) (s : Bytes) :
    offsetDigits (Utf8.encode (padded 2 n) ++ s) = .ok (n, s) := by
  obtain ⟨a, b, hcs, ha, hb, hvalue⟩ := padded_two h
  have ha' : isDigit (ascii a) = true := Json.isDigit_ascii ha
  have hb' : isDigit (ascii b) = true := Json.isDigit_ascii hb
  rw [encode_padded, hcs, ← hvalue]
  simp [offsetDigits, ha', hb', Json.toNat_ascii ha, Json.toNat_ascii hb, Nat.ofDigitChars_cons]

/-- A year is read in two halves, the century and the year in it. -/
theorem twoDigits_padded_four {n : Nat} (h : n < 10000) :
    ∃ century year middle, 100 * century + year = n ∧ ∀ s : Bytes,
      twoDigits (Utf8.encode (padded 4 n) ++ s) = .ok (century, middle ++ s) ∧
        twoDigits (middle ++ s) = .ok (year, s) := by
  have hdigits : ∀ c ∈ padded 4 n, c.isDigit = true := fun c => isDigit_of_mem_padded
  have hvalue := ofDigitChars_padded 4 n
  rw [encode_padded]
  match hcs : padded 4 n, length_padded (n := n) (by decide) h with
  | [a, b, c, d], _ =>
    rw [hcs] at hdigits hvalue
    refine ⟨Nat.ofDigitChars 10 [a, b] 0, Nat.ofDigitChars 10 [c, d] 0, [ascii c, ascii d], ?_,
      fun s => ⟨twoDigits_ascii (hdigits a (by simp)) (hdigits b (by simp)) _,
        twoDigits_ascii (hdigits c (by simp)) (hdigits d (by simp)) s⟩⟩
    rw [← hvalue]
    simp only [Nat.ofDigitChars_cons, Nat.ofDigitChars_nil]
    omega

theorem takeWhile_isDigit {ds rest : Bytes} (hd : ∀ b ∈ ds, isDigit b = true)
    (hr : ∀ b ∈ rest.head?, isDigit b = false) :
    (ds ++ rest).takeWhile isDigit = ds ∧ (ds ++ rest).dropWhile isDigit = rest := by
  have hrest : rest.takeWhile isDigit = [] ∧ rest.dropWhile isDigit = rest := by
    cases rest with
    | nil => exact ⟨rfl, rfl⟩
    | cons b r => simp [hr b rfl]
  constructor
  · rw [List.takeWhile_append_of_pos hd, hrest.1, List.append_nil]
  · rw [List.dropWhile_append_of_pos hd, hrest.2]

/-- Up to nine digits are read, in units of a billionth. -/
theorem fraction_padded {width n : Nat} (hwidth : 0 < width) (hnine : width ≤ 9)
    (h : n < 10 ^ width) {rest : Bytes} (hrest : ∀ b ∈ rest.head?, isDigit b = false) :
    fraction (Utf8.encode (padded width n) ++ rest) = .ok (n * 10 ^ (9 - width), rest) := by
  have hlength : ((padded width n).map ascii).length = width := by
    rw [List.length_map, length_padded hwidth h]
  have hbytes : ∀ b ∈ (padded width n).map ascii, isDigit b = true := by
    intro b hb
    obtain ⟨c, hc, rfl⟩ := List.mem_map.1 hb
    exact Json.isDigit_ascii (isDigit_of_mem_padded hc)
  obtain ⟨htake, hdrop⟩ := takeWhile_isDigit hbytes hrest
  have hall : ((padded width n).map ascii).take 9 = (padded width n).map ascii :=
    List.take_of_length_le (by omega)
  have hvalue := Json.foldl_ascii (padded width n) (fun c hc => isDigit_of_mem_padded hc) 0
  rw [ofDigitChars_padded] at hvalue
  rw [encode_padded]
  generalize (padded width n).map ascii = ds at *
  cases ds with
  | nil => simp at hlength; omega
  | cons d ds =>
    rw [List.cons_append] at *
    simp [fraction, hbytes d List.mem_cons_self, htake, hdrop, hall, hvalue, hlength]

/-- A fraction is written with no, three, six or nine digits, and none of them is lost. -/
theorem fractionText_cases {n : Nat} (h : n < 1000000000) :
    (n = 0 ∧ fractionText n = []) ∨ ∃ width m, fractionText n = '.' :: padded width m ∧
      0 < width ∧ width ≤ 9 ∧ m < 10 ^ width ∧ m * 10 ^ (9 - width) = n := by
  by_cases hzero : n = 0
  · exact .inl ⟨hzero, by simp [fractionText, hzero]⟩
  by_cases hmillis : n % 1000000 = 0
  · exact .inr ⟨3, n / 1000000, by simp [fractionText, hzero, hmillis], by decide, by decide,
      by omega, by omega⟩
  by_cases hmicros : n % 1000 = 0
  · exact .inr ⟨6, n / 1000, by simp [fractionText, hzero, hmillis, hmicros], by decide, by decide,
      by omega, by omega⟩
  · exact .inr ⟨9, n, by simp [fractionText, hzero, hmillis, hmicros], by decide, by decide, h,
      by omega⟩

/-- A fraction is read back if neither a point nor a digit follows. -/
theorem optionalFraction_fractionText {n : Nat} (h : n < 1000000000) {b : UInt8}
    (hdigit : isDigit b = false) (hpoint : b ≠ 0x2e) (s : Bytes) :
    optionalFraction (Utf8.encode (fractionText n) ++ b :: s) = .ok (n, b :: s) := by
  rcases fractionText_cases h with ⟨rfl, htext⟩ | ⟨width, m, htext, hpos, hnine, hm, hvalue⟩
  · rw [htext, Utf8.encode_nil, List.nil_append, optionalFraction]
    rintro r heq
    exact hpoint (List.cons.inj heq).1
  · have hdot : Utf8.encodeChar '.' = [0x2e] := rfl
    have hrest : ∀ c ∈ (b :: s).head?, isDigit c = false := by simpa using hdigit
    rw [htext, Utf8.encode_cons, hdot, List.append_assoc, List.singleton_append, optionalFraction,
      fraction_padded hpos hnine hm hrest, hvalue]

/-- The months and days of the calendar have two digits. -/
theorem Date.Valid.lt_hundred {d : Date} (h : d.Valid) : d.month < 100 ∧ d.day < 100 := by
  obtain ⟨-, hmonth, -, hday⟩ := h
  have hlength := monthLengths_getD_le (isLeap d.year) (d.month - 1)
  omega

/-- A date with a year of four digits is read back. -/
theorem dateFields_chars {d : Date} (h : d.Valid) (hyear : 0 ≤ d.year ∧ d.year ≤ 9999) (s : Bytes) :
    dateFields (Utf8.encode d.chars ++ s) = .ok (d, s) := by
  obtain ⟨year, month, day⟩ := d
  have hyear : 0 ≤ year ∧ year ≤ 9999 := hyear
  obtain ⟨hmonth, hday⟩ : month < 100 ∧ day < 100 := h.lt_hundred
  have hhyphen : Utf8.encodeChar '-' = [0x2d] := rfl
  obtain ⟨century, rest, middle, hsum, htwo⟩ := twoDigits_padded_four (n := year.toNat) (by omega)
  have hdate : (⟨100 * century + rest, month, day⟩ : Date) = ⟨year, month, day⟩ := by
    congr 1
    omega
  simp only [Date.chars, yearText, if_pos hyear, Utf8.encode_append, Utf8.encode_cons, hhyphen,
    List.append_assoc, List.cons_append, List.nil_append]
  simp only [dateFields, (htwo _).1, (htwo _).2, oneOf, twoDigits_padded hmonth,
    twoDigits_padded hday, List.mem_singleton, if_true, bind, Except.bind, pure, Except.pure, hdate,
    if_pos h]

/-- The text of a date with a year of four digits. -/
theorem length_encode_dateChars {d : Date} (h : d.Valid) (hyear : 0 ≤ d.year ∧ d.year ≤ 9999) :
    (Utf8.encode d.chars).length = 10 := by
  have hhyphen : Utf8.encodeChar '-' = [0x2d] := rfl
  have hfour : (Utf8.encode (padded 4 d.year.toNat)).length = 4 :=
    length_encode_padded (by decide) (by omega)
  have hmonth : (Utf8.encode (padded 2 d.month)).length = 2 :=
    length_encode_padded (by decide) h.lt_hundred.1
  have hday : (Utf8.encode (padded 2 d.day)).length = 2 :=
    length_encode_padded (by decide) h.lt_hundred.2
  simp [Date.chars, yearText, hyear, hhyphen, hfour, hmonth, hday]

/-- A second belongs to a day, and is a leap second if its fraction is not below one second. -/
structure TimeOfDay.Normal (c : TimeOfDay) : Prop where
  seconds : c.seconds < 86400
  nanos : c.nanos < 2000000000
  leap : 1000000000 ≤ c.nanos → c.seconds % 60 = 59

/-- The text of a time of day, without counting its fraction. -/
theorem le_length_encode_timeChars {c : TimeOfDay} (h : c.Normal) :
    8 ≤ (Utf8.encode c.chars).length := by
  obtain ⟨hseconds, hnanos, -⟩ := h
  have hcolon : Utf8.encodeChar ':' = [0x3a] := rfl
  have hhour : (Utf8.encode (padded 2 (c.seconds / 3600))).length = 2 :=
    length_encode_padded (by decide) (by omega)
  have hminute : (Utf8.encode (padded 2 (c.seconds / 60 % 60))).length = 2 :=
    length_encode_padded (by decide) (by omega)
  have hsecond : (Utf8.encode (padded 2 (c.seconds % 60 + c.nanos / 1000000000))).length = 2 :=
    length_encode_padded (by decide) (by omega)
  simp [TimeOfDay.chars, hcolon, hhour, hminute, hsecond]
  omega

/-- A time of day is read back, leap seconds included. -/
theorem timeFields_chars {c : TimeOfDay} (h : c.Normal) {b : UInt8} (hdigit : isDigit b = false)
    (hpoint : b ≠ 0x2e) (s : Bytes) :
    timeFields (Utf8.encode c.chars ++ b :: s) = .ok (c, b :: s) := by
  obtain ⟨seconds, nanos⟩ := c
  obtain ⟨hseconds, hnanos, hleap⟩ := h
  simp only at hseconds hnanos hleap
  have hcolon : Utf8.encodeChar ':' = [0x3a] := rfl
  have hhour : seconds / 3600 < 24 := by omega
  have hminute : seconds / 60 % 60 < 60 := by omega
  have hsecond : seconds % 60 + nanos / 1000000000 ≤ 60 := by omega
  have hfraction := optionalFraction_fractionText
    (Nat.mod_lt nanos (by decide : 0 < 1000000000)) hdigit hpoint s
  simp only [TimeOfDay.chars, Utf8.encode_append, Utf8.encode_cons, hcolon, List.append_assoc,
    List.cons_append, List.nil_append]
  simp only [timeFields, oneOf, twoDigits_padded (Nat.lt_trans hhour (by decide)),
    twoDigits_padded (Nat.lt_trans hminute (by decide)),
    twoDigits_padded (Nat.lt_of_le_of_lt hsecond (by decide)), hfraction, List.mem_singleton,
    if_true, bind, Except.bind, pure, Except.pure]
  rw [if_neg (by omega)]
  by_cases h60 : seconds % 60 + nanos / 1000000000 = 60
  · rw [if_pos h60]
    congr 3 <;> omega
  · rw [if_neg h60]
    congr 3 <;> omega

structure Offset where
  negative : Bool
  hours : Nat
  minutes : Nat
  deriving DecidableEq, Repr

namespace Offset

/-- Less than a day, and with minutes of an hour. -/
def Valid (o : Offset) : Prop := o.hours < 24 ∧ o.minutes < 60

instance (o : Offset) : Decidable o.Valid := inferInstanceAs (Decidable (_ ∧ _))

def seconds (o : Offset) : Int :=
  if o.negative then -(o.hours * 3600 + o.minutes * 60 : Int) else o.hours * 3600 + o.minutes * 60

def chars (o : Offset) : List Char :=
  (if o.negative then '-' else '+') :: padded 2 o.hours ++ ':' :: padded 2 o.minutes

theorem Valid.natAbs_lt {o : Offset} (h : o.Valid) : o.seconds.natAbs < 86400 := by
  obtain ⟨hhours, hminutes⟩ := h
  rw [seconds]
  split <;> omega

theorem seconds_emod (o : Offset) : o.seconds % 60 = 0 := by
  rw [seconds]
  split <;> omega

/-- An offset is read back, and what stands before it does not go on with it. -/
theorem offset_chars {o : Offset} (h : o.Valid) : ∃ b s, Utf8.encode o.chars = b :: s ∧
    isDigit b = false ∧ b ≠ 0x2e ∧ offset (b :: s) = .ok (o.seconds, []) := by
  obtain ⟨negative, hours, minutes⟩ := o
  obtain ⟨hhours, hminutes⟩ := h
  have hlast := offsetDigits_padded (Nat.lt_trans hminutes (by decide)) []
  rw [List.append_nil] at hlast
  have hcolon : Utf8.encodeChar ':' = [0x3a] := rfl
  refine ⟨if negative then 0x2d else 0x2b,
    Utf8.encode (padded 2 hours) ++ 0x3a :: Utf8.encode (padded 2 minutes), ?_, ?_, ?_, ?_⟩
  · cases negative <;> simp [chars, hcolon] <;> rfl
  · cases negative <;> rfl
  · cases negative <;> decide
  · cases negative <;>
      simp [offset, offsetSign, offsetDigits_padded (Nat.lt_trans hhours (by decide)), oneOf, hlast,
        Nat.not_le.2 hminutes, seconds, bind, Except.bind, pure, Except.pure]

end Offset

namespace Instant

/-- A fraction of one second or more occurs in a leap second only. -/
structure Normal (t : Instant) : Prop where
  nanos : t.nanos < 2000000000
  leap : 1000000000 ≤ t.nanos → t.seconds % 60 = 59

instance (t : Instant) : Decidable t.Normal :=
  decidable_of_iff (t.nanos < 2000000000 ∧ (1000000000 ≤ t.nanos → t.seconds % 60 = 59))
    ⟨fun h => ⟨h.1, h.2⟩, fun h => ⟨h.nanos, h.leap⟩⟩

/-- The year in universal time has four digits. -/
def FourDigitYear (t : Instant) : Prop := 0 ≤ t.date.year ∧ t.date.year ≤ 9999

instance (t : Instant) : Decidable t.FourDigitYear := inferInstanceAs (Decidable (_ ∧ _))

/-- The years of four digits, in seconds. -/
theorem fourDigitYear_iff (t : Instant) :
    t.FourDigitYear ↔ -62167219200 ≤ t.seconds ∧ t.seconds < 253402300800 := by
  have hepoch : epochDay = 719528 := by decide
  have hzero : daysBeforeYear 0 = 0 := by decide
  have hlast : daysBeforeYear 10000 = 3652425 := by decide
  have hfirst : 0 ≤ t.date.year ↔ daysBeforeYear 0 ≤ t.seconds / 86400 + epochDay :=
    Date.le_year_ofDays_iff
  have hafter : 10000 ≤ t.date.year ↔ daysBeforeYear 10000 ≤ t.seconds / 86400 + epochDay :=
    Date.le_year_ofDays_iff
  rw [hzero, hepoch] at hfirst
  rw [hlast, hepoch] at hafter
  rw [FourDigitYear]
  omega

/-- What a clock shows that is ahead of universal time by an offset. -/
def shift (t : Instant) (o : Offset) : Instant := ⟨t.seconds + o.seconds, t.nanos⟩

def textAt (t : Instant) (o : Offset) : String := String.ofList ((t.shift o).chars ++ o.chars)

theorem text_eq_textAt (t : Instant) : t.text = t.textAt ⟨false, 0, 0⟩ := by
  have hshift : t.shift ⟨false, 0, 0⟩ = t := by simp [shift, Offset.seconds]
  have hchars : Offset.chars ⟨false, 0, 0⟩ = "+00:00".toList := by decide
  rw [textAt, hshift, hchars, text]

theorem Normal.timeOfDay {t : Instant} (h : t.Normal) : t.timeOfDay.Normal := by
  obtain ⟨hnanos, hleap⟩ := h
  refine ⟨?_, hnanos, fun hlong => ?_⟩
  · simp only [Instant.timeOfDay]
    omega
  · have := hleap hlong
    simp only [Instant.timeOfDay]
    omega

theorem Normal.shift {t : Instant} (h : t.Normal) (o : Offset) : (t.shift o).Normal := by
  refine ⟨h.nanos, fun hlong => ?_⟩
  have hleap := h.leap hlong
  have hoffset := o.seconds_emod
  simp only [Instant.shift]
  omega

/-- An instant with a year of four digits is read back behind its date and time, and the offset that
follows is taken off. -/
theorem ofBytes_chars {t : Instant} (h : t.Normal) (hyear : t.FourDigitYear) {o : Offset}
    (ho : o.Valid) : ofBytes (Utf8.encode (t.chars ++ o.chars)) =
      .ok ⟨t.seconds - o.seconds, t.nanos⟩ := by
  obtain ⟨b, s, hbytes, hdigit, hpoint, hoffset⟩ := Offset.offset_chars ho
  have hdate := dateFields_chars (Date.valid_ofDays (t.seconds / 86400)) hyear
  have hT : Utf8.encodeChar 'T' = [0x54] := rfl
  have hlength : ¬ (Utf8.encode t.chars ++ b :: s).length < 19 := by
    have hdate := length_encode_dateChars (Date.valid_ofDays (t.seconds / 86400)) hyear
    have htime := le_length_encode_timeChars h.timeOfDay
    simp [chars, date, hT, hdate]
    omega
  have htime := timeFields_chars h.timeOfDay hdigit hpoint s
  have hseconds : (Date.ofDays (t.seconds / 86400)).toDays * 86400 + t.timeOfDay.seconds =
      t.seconds := by
    rw [Date.toDays_ofDays]
    simp only [timeOfDay]
    omega
  rw [Utf8.encode_append, hbytes, ofBytes, if_neg hlength]
  simp only [chars, Utf8.encode_append, Utf8.encode_cons, hT, List.append_assoc, List.cons_append,
    List.nil_append]
  simp only [date, hdate, oneOf, List.mem_cons, true_or, if_true, htime, hoffset, bind, Except.bind,
    pure, Except.pure, ne_eq, not_true, if_false, if_neg (Nat.not_le.2 ho.natAbs_lt), hseconds]
  rfl

theorem ofText_textAt {t : Instant} (h : t.Normal) {o : Offset} (ho : o.Valid)
    (hyear : (t.shift o).FourDigitYear) : ofText (t.textAt o) = .ok t := by
  rw [ofText, textAt, String.toList_ofList, ofBytes_chars (h.shift o) hyear ho]
  simp [Instant.shift]

theorem ofText_text {t : Instant} (h : t.Normal) (hyear : t.FourDigitYear) :
    ofText t.text = .ok t := by
  rw [text_eq_textAt]
  apply ofText_textAt h (by decide)
  simpa [shift, Offset.seconds] using hyear

/-- A text that starts with no digit is refused. -/
theorem ofBytes_eq_error {b : UInt8} (h : isDigit b = false) (s : Bytes) :
    ∃ why, ofBytes (b :: s) = .error why := by
  rw [ofBytes]
  split
  · exact ⟨_, rfl⟩
  · have hdate : dateFields (b :: s) = .error .invalid := by
      simp [dateFields, twoDigits, digit, h, bind, Except.bind]
    rw [hdate]
    exact ⟨_, rfl⟩

/-- Any other year has a sign in front, which the reader does not take. -/
theorem ofText_text_eq_error {t : Instant} (hyear : ¬ t.FourDigitYear) :
    ∃ why, ofText t.text = .error why := by
  obtain ⟨sign, cs, hcs, hsign⟩ : ∃ sign cs, t.date.chars = sign :: cs ∧
      (sign = '+' ∨ sign = '-') := by
    rw [FourDigitYear] at hyear
    rw [Date.chars, yearText, if_neg hyear]
    split
    · exact ⟨_, _, rfl, .inl rfl⟩
    · exact ⟨_, _, rfl, .inr rfl⟩
  have hbytes : ∃ b s, Utf8.encode t.text.toList = b :: s ∧ isDigit b = false := by
    rw [text, String.toList_ofList, chars, hcs]
    rcases hsign with rfl | rfl
    · exact ⟨0x2b, _, rfl, rfl⟩
    · exact ⟨0x2d, _, rfl, rfl⟩
  obtain ⟨b, s, hbytes, hdigit⟩ := hbytes
  rw [ofText, hbytes]
  exact ofBytes_eq_error hdigit s

end Instant

theorem foldl_digits_lt (ds : Bytes) (h : ∀ d ∈ ds, isDigit d = true) :
    ds.foldl (fun n d => n * 10 + (d.toNat - 48)) 0 < 10 ^ ds.length := by
  have step : ∀ (ds : Bytes) (n k : Nat), (∀ d ∈ ds, isDigit d = true) → n < k →
      ds.foldl (fun n d => n * 10 + (d.toNat - 48)) n < k * 10 ^ ds.length := by
    intro ds
    induction ds with
    | nil => intro n k _ hn; simpa using hn
    | cons d ds ih =>
      intro n k hds hn
      have hd : d.toNat ≤ 57 := by
        have hd := hds d List.mem_cons_self
        simp only [isDigit, Bool.and_eq_true, decide_eq_true_eq, UInt8.le_iff_toNat_le] at hd
        exact hd.2
      have hrest := ih (n * 10 + (d.toNat - 48)) (k * 10)
        (fun e he => hds e (List.mem_cons_of_mem _ he)) (by omega)
      rwa [List.length_cons, Nat.pow_succ', ← Nat.mul_assoc, List.foldl_cons]
  simpa using step ds 0 1 h (by decide)

theorem fraction_lt {s rest : Bytes} {n : Nat} (h : fraction s = .ok (n, rest)) :
    n < 1000000000 := by
  cases s with
  | nil => cases h
  | cons b s =>
    rw [fraction] at h
    split at h
    · cases h
    · cases h
      have hdigits : ∀ d ∈ ((b :: s).takeWhile isDigit).take 9, isDigit d = true := fun d hd =>
        List.all_eq_true.1 List.all_takeWhile d (List.mem_of_mem_take hd)
      have hlength : (((b :: s).takeWhile isDigit).take 9).length ≤ 9 := List.length_take_le 9 _
      have hlt := foldl_digits_lt _ hdigits
      generalize ((b :: s).takeWhile isDigit).take 9 = ds at *
      calc _ < 10 ^ ds.length * 10 ^ (9 - ds.length) :=
            Nat.mul_lt_mul_of_pos_right hlt (Nat.pow_pos (by decide))
        _ = 10 ^ 9 := by rw [← Nat.pow_add, Nat.add_sub_cancel' hlength]

theorem optionalFraction_lt {s rest : Bytes} {n : Nat} (h : optionalFraction s = .ok (n, rest)) :
    n < 1000000000 := by
  rw [optionalFraction.eq_def] at h
  split at h
  · exact fraction_lt h
  · cases h
    decide

theorem TimeOfDay.normal_of_timeFields {s rest : Bytes} {c : TimeOfDay}
    (h : timeFields s = .ok (c, rest)) : c.Normal := by
  obtain ⟨⟨hour, s⟩, -, h⟩ := bind_eq_ok.1 h
  obtain ⟨s, -, h⟩ := bind_eq_ok.1 h
  obtain ⟨⟨minute, s⟩, -, h⟩ := bind_eq_ok.1 h
  obtain ⟨s, -, h⟩ := bind_eq_ok.1 h
  obtain ⟨⟨second, s⟩, -, h⟩ := bind_eq_ok.1 h
  obtain ⟨⟨nanos, s⟩, hnanos, h⟩ := bind_eq_ok.1 h
  have hlt := optionalFraction_lt hnanos
  simp only at h
  split at h
  · cases h
  · split at h
    · cases h
      exact ⟨by simp only; omega, by simp only; omega, fun _ => by simp only; omega⟩
    · cases h
      exact ⟨by simp only; omega, by simp only; omega, fun hlong => by simp only at hlong; omega⟩

/-- Offsets are whole minutes. -/
theorem offset_emod {s rest : Bytes} {k : Int} (h : offset s = .ok (k, rest)) : k % 60 = 0 := by
  rw [offset.eq_def] at h
  split at h
  · cases h
    rfl
  · cases h
    rfl
  · obtain ⟨⟨negative, s⟩, -, h⟩ := bind_eq_ok.1 h
    obtain ⟨⟨hours, s⟩, -, h⟩ := bind_eq_ok.1 h
    obtain ⟨s, -, h⟩ := bind_eq_ok.1 h
    obtain ⟨⟨minutes, s⟩, -, h⟩ := bind_eq_ok.1 h
    simp only at h
    split at h
    · cases h
    · cases h
      split <;> omega

namespace Instant

theorem normal_of_ofText {s : String} {t : Instant} (h : ofText s = .ok t) : t.Normal := by
  rw [ofText, ofBytes] at h
  split at h
  · cases h
  · obtain ⟨⟨date, s⟩, -, h⟩ := bind_eq_ok.1 h
    obtain ⟨s, -, h⟩ := bind_eq_ok.1 h
    obtain ⟨⟨time, s⟩, htime, h⟩ := bind_eq_ok.1 h
    obtain ⟨⟨k, s⟩, hk, h⟩ := bind_eq_ok.1 h
    simp only at h
    split at h
    · cases h
    · split at h
      · cases h
      · cases h
        obtain ⟨-, hnanos, hleap⟩ := TimeOfDay.normal_of_timeFields htime
        have hk := offset_emod hk
        refine ⟨hnanos, fun hlong => ?_⟩
        have hleap := hleap hlong
        simp only
        omega

/-- A number of seconds is accepted if and only if it is finite and its day is in the calendar; its
whole part is kept. -/
theorem ofSeconds?_eq_some_iff {x : Float} {t : Instant} : ofSeconds? x = some t ↔
    ∃ whole, Decimal.floor? x = some whole ∧ firstDay ≤ whole / 86400 ∧ whole / 86400 ≤ lastDay ∧
      t = ⟨whole, nanosAbove whole x⟩ := by
  simp only [ofSeconds?, bind, Option.bind_eq_some_iff, Option.ite_none_right_eq_some,
    Option.some.injEq, and_assoc, eq_comm (a := t)]

theorem nanosAbove_lt (whole : Int) (x : Float) : nanosAbove whole x < 1000000000 := by
  rw [nanosAbove]
  split <;> omega

theorem normal_of_ofSeconds? {x : Float} {t : Instant} (h : ofSeconds? x = some t) : t.Normal := by
  obtain ⟨whole, -, -, -, rfl⟩ := ofSeconds?_eq_some_iff.1 h
  have hlt := nanosAbove_lt whole x
  exact ⟨by simp only; omega, fun hlong => by simp only at hlong; omega⟩

end Instant

end SiteAtlas.Time
