import SiteAtlas.Time.Calendar
import SiteAtlas.Text.Utf8
import SiteAtlas.Decimal.Binary

/-!
Instants: seconds since the epoch with nanoseconds, their date-and-time text, and the two forms in
which a service sends them, a number of seconds or a text with an offset.

A leap second is the second before it with a fraction of one second or more.
-/
namespace SiteAtlas.Time

open Utf8 (Bytes)

structure Instant where
  seconds : Int
  nanos : Nat
  deriving DecidableEq, Repr

/-- The first and the last day of the calendar that instants may have. -/
def firstDay : Int := (Date.mk (-262143) 1 1).toDays

def lastDay : Int := (Date.mk 262142 12 31).toDays

def padded (width n : Nat) : List Char :=
  let digits := Nat.toDigits 10 n
  List.replicate (width - digits.length) '0' ++ digits

/-- Four digits; a sign in front if the year has more digits or is negative. -/
def yearText (year : Int) : List Char :=
  if 0 ≤ year ∧ year ≤ 9999 then padded 4 year.toNat
  else if 0 ≤ year then '+' :: padded 4 year.toNat
  else '-' :: padded 4 year.natAbs

/-- A fraction of a second with no, three, six or nine digits. -/
def fractionText (nanos : Nat) : List Char :=
  if nanos = 0 then []
  else if nanos % 1000000 = 0 then '.' :: padded 3 (nanos / 1000000)
  else if nanos % 1000 = 0 then '.' :: padded 6 (nanos / 1000)
  else '.' :: padded 9 nanos

def Date.chars (d : Date) : List Char :=
  yearText d.year ++ '-' :: padded 2 d.month ++ '-' :: padded 2 d.day

structure TimeOfDay where
  seconds : Nat
  nanos : Nat
  deriving DecidableEq, Repr

/-- A leap second is shown as the second 60. -/
def TimeOfDay.chars (c : TimeOfDay) : List Char :=
  padded 2 (c.seconds / 3600) ++ ':' :: padded 2 (c.seconds / 60 % 60) ++
    ':' :: padded 2 (c.seconds % 60 + c.nanos / 1000000000) ++ fractionText (c.nanos % 1000000000)

def Instant.date (t : Instant) : Date := Date.ofDays (t.seconds / 86400)

def Instant.timeOfDay (t : Instant) : TimeOfDay := ⟨(t.seconds % 86400).toNat, t.nanos⟩

def Instant.chars (t : Instant) : List Char := t.date.chars ++ 'T' :: t.timeOfDay.chars

/-- The text that is sent, with a numeric offset. -/
def Instant.text (t : Instant) : String := String.ofList (t.chars ++ "+00:00".toList)

def Instant.shown (t : Instant) : String := String.ofList (t.chars ++ ['Z'])

/-- What a number of seconds has above a whole number that is not greater, rounded to nanoseconds
and kept below a second. -/
def nanosAbove (whole : Int) (seconds : Float) : Nat :=
  match Decimal.view ((seconds - Float.ofInt whole) * 1e9) with
  | .finite false size _ => min (size.scaled 0).roundUp 999999999
  | _ => 0

/-- The instant a number of seconds after the epoch; the fraction is rounded to nanoseconds. -/
def Instant.ofSeconds? (seconds : Float) : Option Instant := do
  let whole ← Decimal.floor? seconds
  let day := whole / 86400
  if firstDay ≤ day ∧ day ≤ lastDay then some ⟨whole, nanosAbove whole seconds⟩ else none

inductive Refusal where
  | tooShort | invalid | outOfRange | trailing
  deriving DecidableEq, Repr

def Refusal.message : Refusal → String
  | .tooShort => "premature end of input"
  | .invalid => "input contains invalid characters"
  | .outOfRange => "input is out of range"
  | .trailing => "trailing input"

def isDigit (b : UInt8) : Bool := 0x30 ≤ b && b ≤ 0x39

def digit : Bytes → Except Refusal (Nat × Bytes)
  | [] => .error .tooShort
  | b :: s => if isDigit b then .ok (b.toNat - 48, s) else .error .invalid

def twoDigits (s : Bytes) : Except Refusal (Nat × Bytes) := do
  let (a, s) ← digit s
  let (b, s) ← digit s
  return (10 * a + b, s)

def oneOf (allowed : List UInt8) : Bytes → Except Refusal Bytes
  | [] => .error .tooShort
  | b :: s => if b ∈ allowed then .ok s else .error .invalid

/-- The digits of a fraction of a second; those after the ninth do not count. -/
def fraction (s : Bytes) : Except Refusal (Nat × Bytes) :=
  match s with
  | [] => .error .tooShort
  | b :: _ =>
    if !isDigit b then .error .invalid
    else
      let ds := (s.takeWhile isDigit).take 9
      let n := ds.foldl (fun n d => n * 10 + (d.toNat - 48)) 0
      .ok (n * Nat.pow 10 (9 - ds.length), s.dropWhile isDigit)

/-- A fraction behind its point, or nothing. -/
def optionalFraction : Bytes → Except Refusal (Nat × Bytes)
  | 0x2e :: s => fraction s
  | s => .ok (0, s)

def dateFields (s : Bytes) : Except Refusal (Date × Bytes) := do
  let (century, s) ← twoDigits s
  let (year, s) ← twoDigits s
  let s ← oneOf [0x2d] s
  let (month, s) ← twoDigits s
  let s ← oneOf [0x2d] s
  let (day, s) ← twoDigits s
  let date : Date := ⟨100 * century + year, month, day⟩
  if date.Valid then return (date, s) else throw .outOfRange

/-- A time of day. The second 60 of any minute is a leap second. -/
def timeFields (s : Bytes) : Except Refusal (TimeOfDay × Bytes) := do
  let (hour, s) ← twoDigits s
  let s ← oneOf [0x3a] s
  let (minute, s) ← twoDigits s
  let s ← oneOf [0x3a] s
  let (second, s) ← twoDigits s
  let (nanos, s) ← optionalFraction s
  if 24 ≤ hour ∨ 60 ≤ minute ∨ 60 < second then throw .outOfRange
  else if second = 60 then return (⟨hour * 3600 + minute * 60 + 59, nanos + 1000000000⟩, s)
  else return (⟨hour * 3600 + minute * 60 + second, nanos⟩, s)

/-- The sign of an offset: a plus, a hyphen or the minus sign U+2212. -/
def offsetSign : Bytes → Except Refusal (Bool × Bytes)
  | [] => .error .tooShort
  | 0x2b :: s => .ok (false, s)
  | 0x2d :: s => .ok (true, s)
  | 0xe2 :: 0x88 :: 0x92 :: s => .ok (true, s)
  | _ => .error .invalid

/-- Two digits of an offset, whose length is checked first. -/
def offsetDigits : Bytes → Except Refusal (Nat × Bytes)
  | a :: b :: s =>
    if isDigit a && isDigit b then .ok (10 * (a.toNat - 48) + (b.toNat - 48), s)
    else .error .invalid
  | _ => .error .tooShort

/-- An offset from universal time in seconds: the letter Z, or hours and minutes. -/
def offset : Bytes → Except Refusal (Int × Bytes)
  | 0x5a :: s => .ok (0, s)
  | 0x7a :: s => .ok (0, s)
  | s => do
    let (negative, s) ← offsetSign s
    let (hours, s) ← offsetDigits s
    let s ← oneOf [0x3a] s
    let (minutes, s) ← offsetDigits s
    if 60 ≤ minutes then .error .outOfRange
    else
      let seconds : Int := hours * 3600 + minutes * 60
      return (if negative then -seconds else seconds, s)

def Instant.ofBytes (s : Bytes) : Except Refusal Instant :=
  if s.length < 19 then .error .tooShort
  else do
    let (date, s) ← dateFields s
    let s ← oneOf [0x54, 0x74, 0x20] s
    let (time, s) ← timeFields s
    let (offset, s) ← offset s
    if s ≠ [] then throw .trailing
    else if 86400 ≤ offset.natAbs then throw .outOfRange
    else return ⟨date.toDays * 86400 + time.seconds - offset, time.nanos⟩

def Instant.ofText (text : String) : Except Refusal Instant :=
  Instant.ofBytes (Utf8.encode text.toList)

end SiteAtlas.Time
