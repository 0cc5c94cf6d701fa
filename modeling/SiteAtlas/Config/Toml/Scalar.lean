import SiteAtlas.Config.Toml.Text
import SiteAtlas.Config.Toml.Value
import SiteAtlas.Decimal.Reading
import SiteAtlas.Time.Calendar

/-!
Values of TOML that are written without marks: booleans, numbers, dates and times.
-/
namespace SiteAtlas.Toml

def isDigit (c : Char) : Bool := '0' ≤ c && c ≤ '9'

/-- The digits of a number in which single underscores may stand between digits. -/
def separated (digit : Char → Bool) : List Char → Option (List Char)
  | [] => none
  | [c] => if digit c then some [c] else none
  | c :: '_' :: rest => if digit c then (separated digit rest).map (c :: ·) else none
  | c :: rest => if digit c then (separated digit rest).map (c :: ·) else none

def digitsValue (base : Nat) (cs : List Char) : Nat :=
  cs.foldl (fun n c => n * base + (hexValue? c).getD 0) 0

/-- An integer, unless it needs more than 128 bits. -/
def ofInt (n : Int) : Toml :=
  if -Nat.pow 2 127 ≤ n ∧ n < Nat.pow 2 128 then .int n else .huge

def splitSign : List Char → Bool × List Char
  | '-' :: cs => (true, cs)
  | '+' :: cs => (false, cs)
  | cs => (false, cs)

/-- Digits without a leading zero, but for zero itself. -/
def wholeDigits (cs : List Char) : Option (List Char) :=
  match separated isDigit cs with
  | some ('0' :: _ :: _) => none
  | ds => ds

def decimalInt? (cs : List Char) : Option Toml := do
  let (negative, cs) := splitSign cs
  let n := digitsValue 10 (← wholeDigits cs)
  return ofInt (if negative then -(n : Int) else n)

def basedInt? : List Char → Option Toml
  | '0' :: 'x' :: cs => do return ofInt (digitsValue 16 (← separated (hexValue? · |>.isSome) cs))
  | '0' :: 'o' :: cs => do
    return ofInt (digitsValue 8 (← separated (fun c => '0' ≤ c && c ≤ '7') cs))
  | '0' :: 'b' :: cs => do
    return ofInt (digitsValue 2 (← separated (fun c => c == '0' || c == '1') cs))
  | _ => none

def isExponentMark (c : Char) : Bool := c == 'e' || c == 'E'

def exponent? : List Char → Option Int
  | [] => some 0
  | _ :: cs => do
    let (negative, cs) := splitSign cs
    let n := digitsValue 10 (← separated isDigit cs)
    return if negative then -(n : Int) else n

/-- The digits behind the point, or none. -/
def fraction? : List Char → Option (List Char)
  | [] => some []
  | _ :: cs => separated isDigit cs

def float? (cs : List Char) : Option Toml := do
  let (negative, cs) := splitSign cs
  if cs = ['i', 'n', 'f'] then
    return .float (if negative then -1.0 / 0.0 else 1.0 / 0.0)
  if cs = ['n', 'a', 'n'] then return .float (0.0 / 0.0)
  let mantissa := cs.takeWhile fun c => !isExponentMark c
  let exponent ← exponent? (cs.dropWhile fun c => !isExponentMark c)
  let whole ← wholeDigits (mantissa.takeWhile (· != '.'))
  let fraction ← fraction? (mantissa.dropWhile (· != '.'))
  let size : Decimal.Scientific :=
    ⟨digitsValue 10 (whole ++ fraction), exponent - fraction.length⟩
  match size.nearest? negative with
  | some x => return .float x
  | none => return .huge

def twoDigits? : List Char → Option (Parsed Nat)
  | a :: b :: cs =>
    if isDigit a && isDigit b then some (digitsValue 10 [a, b], cs) else none
  | _ => none

def expect (c : Char) : List Char → Option (List Char)
  | d :: cs => if d = c then some cs else none
  | [] => none

def date? (cs : List Char) : Option (List Char) := do
  let (century, cs) ← twoDigits? cs
  let (year, cs) ← twoDigits? cs
  let cs ← expect '-' cs
  let (month, cs) ← twoDigits? cs
  let cs ← expect '-' cs
  let (day, cs) ← twoDigits? cs
  let date : Time.Date := ⟨100 * century + year, month, day⟩
  if date.Valid then some cs else none

def secondFraction? : List Char → Option (List Char)
  | '.' :: c :: cs => if isDigit c then some (cs.dropWhile isDigit) else none
  | '.' :: [] => none
  | cs => some cs

/-- Skip seconds, which may be left out. -/
def seconds? : List Char → Option (List Char)
  | ':' :: cs => do
    let (second, cs) ← twoDigits? cs
    if second ≤ 60 then secondFraction? cs else none
  | cs => some cs

def time? (cs : List Char) : Option (List Char) := do
  let (hour, cs) ← twoDigits? cs
  let cs ← expect ':' cs
  let (minute, cs) ← twoDigits? cs
  if hour < 24 ∧ minute < 60 then seconds? cs else none

/-- The end of a date with a time: nothing, or an offset. -/
def isOffset : List Char → Bool
  | [] => true
  | [c] => c == 'Z' || c == 'z'
  | c :: cs =>
    (c == '+' || c == '-') &&
      ((do
        let (hours, cs) ← twoDigits? cs
        let cs ← expect ':' cs
        let (minutes, cs) ← twoDigits? cs
        return hours < 24 && minutes < 60 && cs.isEmpty).getD false)

def isMoment (cs : List Char) : Bool :=
  match date? cs with
  | some [] => true
  | some (mark :: rest) =>
    (mark == 'T' || mark == 't' || mark == ' ') && ((time? rest).map isOffset).getD false
  | none => time? cs == some []

def isWordChar (c : Char) : Bool :=
  c.isAlphanum || c == '_' || c == '+' || c == '-' || c == '.' || c == ':'

/-- The word at the front. After a date, a blank and a digit start the time that belongs to it. -/
def splitWord (cs : List Char) : List Char × List Char :=
  let word := cs.takeWhile isWordChar
  let rest := cs.dropWhile isWordChar
  match rest with
  | ' ' :: c :: _ =>
    if isDigit c && date? word == some [] then
      (word ++ ' ' :: rest.tail.takeWhile isWordChar, rest.tail.dropWhile isWordChar)
    else (word, rest)
  | _ => (word, rest)

def ofWord? (word : List Char) : Option Toml :=
  if word = ['t', 'r', 'u', 'e'] then some (.bool true)
  else if word = ['f', 'a', 'l', 's', 'e'] then some (.bool false)
  else (decimalInt? word).orElse fun _ => (basedInt? word).orElse fun _ =>
    (float? word).orElse fun _ => if isMoment word then some .moment else none

end SiteAtlas.Toml
