import SiteAtlas.Json.Value
import SiteAtlas.Decimal.Reading
import SiteAtlas.Text.Utf8

/-!
Reading JSON text. The reader works on the bytes that are left and returns those that it did not
use; where it stops, it says how many bytes are left, and the place in the text follows from that.
Containers may nest to a given depth only.
-/
namespace SiteAtlas.Json

open Utf8 (Bytes)

inductive Cause where
  | endInValue
  | endInList
  | endInObject
  | endInString
  | expectedColon
  | expectedCommaInList
  | expectedCommaInObject
  | expectedWord
  | expectedValue
  | invalidEscape
  | invalidNumber
  | numberOutOfRange
  | invalidCodePoint
  | controlCharacter
  | keyNotString
  | loneSurrogate
  | unfinishedSurrogatePair
  | trailingComma
  | trailingCharacters
  | tooDeep
  deriving DecidableEq, Repr

def Cause.message : Cause → String
  | .endInValue => "EOF while parsing a value"
  | .endInList => "EOF while parsing a list"
  | .endInObject => "EOF while parsing an object"
  | .endInString => "EOF while parsing a string"
  | .expectedColon => "expected `:`"
  | .expectedCommaInList => "expected `,` or `]`"
  | .expectedCommaInObject => "expected `,` or `\x7d`"
  | .expectedWord => "expected ident"
  | .expectedValue => "expected value"
  | .invalidEscape => "invalid escape"
  | .invalidNumber => "invalid number"
  | .numberOutOfRange => "number out of range"
  | .invalidCodePoint => "invalid unicode code point"
  | .controlCharacter =>
    "control character (\\u0000-\\u001F) found while parsing a string"
  | .keyNotString => "key must be a string"
  | .loneSurrogate => "lone leading surrogate in hex escape"
  | .unfinishedSurrogatePair => "unexpected end of hex escape"
  | .trailingComma => "trailing comma"
  | .trailingCharacters => "trailing characters"
  | .tooDeep => "recursion limit exceeded"

/-- A reader that cannot go on: the cause, and how many bytes are left there. -/
structure Stop where
  cause : Cause
  left : Nat
  deriving DecidableEq, Repr

abbrev Parsed (α : Type) := α × Bytes

def stopAt {α : Type} (cause : Cause) (s : Bytes) : Except Stop α := .error ⟨cause, s.length⟩

/-- Stop just behind the next byte, if there is one. -/
def stopPast {α : Type} (cause : Cause) (s : Bytes) : Except Stop α :=
  .error ⟨cause, s.length - 1⟩

/-- The byte of an ASCII character. -/
def ascii (c : Char) : UInt8 := c.toNat.toUInt8

def isSpace (b : UInt8) : Bool := b == 0x20 || b == 0x0a || b == 0x09 || b == 0x0d

def isDigit (b : UInt8) : Bool := 0x30 ≤ b && b ≤ 0x39

def skipSpace (s : Bytes) : Bytes := s.dropWhile isSpace

def word : Bytes → Bytes → Except Stop Bytes
  | [], s => .ok s
  | _ :: _, [] => stopAt .endInValue []
  | w :: ws, b :: s => if b = w then word ws s else stopAt .expectedWord s

def digitsValue (ds : Bytes) : Nat := ds.foldl (fun n d => n * 10 + (d.toNat - 48)) 0

/-- Put digits behind a number as long as it fits in 64 bits. From the first digit that does not fit
on all are dropped: how many they are. -/
def fitDigits : Nat → Bytes → Nat × Nat
  | n, [] => (n, 0)
  | n, d :: ds =>
    let m := n * 10 + (d.toNat - 48)
    if m < 18446744073709551616 then fitDigits m ds else (n, ds.length + 1)

/-- The digits in front of and behind the point as they count for a float. A digit that is dropped
in front of the point leaves its place, and digits behind the point may still fit. -/
def decimal (whole fraction : Bytes) : Decimal.Scientific :=
  let (n, places) := fitDigits 0 whole
  let (m, dropped) := fitDigits n fraction
  ⟨m, (places : Int) - (fraction.length - dropped : Nat)⟩

/-- A number without fraction and exponent: an integer if it fits, and a float otherwise. The text
`-0` is the float with that sign. -/
def wholeNumber? (negative : Bool) (whole : Bytes) : Option Json :=
  let n := digitsValue whole
  let float := ((decimal whole []).quick? negative).map Json.float
  if negative then if 0 < n ∧ n ≤ 9223372036854775808 then some (.int (-(n : Int))) else float
  else if n < 18446744073709551616 then some (.int n)
  else float

def exponentLimit : Nat := 2147483647

/-- The digits of an exponent that go past the limit end at the first one that does. -/
def overflowAt? : Nat → Bytes → Option Bytes
  | _, [] => none
  | n, d :: ds =>
    let m := n * 10 + (d.toNat - 48)
    if exponentLimit < m then some ds else overflowAt? m ds

def exponentDigits (negative : Bool) (size : Decimal.Scientific) (down : Bool) (s : Bytes) :
    Except Stop (Parsed Json) :=
  match s with
  | [] => stopAt .endInValue []
  | b :: r =>
    if !isDigit b then stopAt .invalidNumber r
    else
      let ds := s.takeWhile isDigit
      let rest := s.dropWhile isDigit
      let zero : Json := .float (if negative then -0.0 else 0.0)
      match overflowAt? 0 ds with
      | some unread =>
        if size.digits = 0 ∨ down then .ok (zero, rest)
        else stopAt .numberOutOfRange (unread ++ rest)
      | none =>
        let e : Int := if down then -(digitsValue ds : Int) else digitsValue ds
        match Decimal.Scientific.quick? negative ⟨size.digits, size.exponent + e⟩ with
        | some x => .ok (.float x, rest)
        | none => stopAt .numberOutOfRange rest

def exponentPart (negative : Bool) (size : Decimal.Scientific) (s : Bytes) :
    Except Stop (Parsed Json) :=
  match s with
  | [] => stopAt .endInValue []
  | b :: r =>
    if b = ascii '-' then exponentDigits negative size true r
    else if b = ascii '+' then exponentDigits negative size false r
    else exponentDigits negative size false s

/-- What follows the digits before the point. -/
def afterDigits (negative : Bool) (whole : Bytes) (s : Bytes) : Except Stop (Parsed Json) :=
  match s with
  | [] => plainNumber []
  | b :: r =>
    if b = ascii '.' then
      let fraction := r.takeWhile isDigit
      let rest := r.dropWhile isDigit
      let size := decimal whole fraction
      if fraction.isEmpty then
        match rest with
        | [] => stopAt .endInValue []
        | _ :: _ => stopPast .invalidNumber rest
      else match rest with
        | e :: r' =>
          if e = ascii 'e' || e = ascii 'E' then exponentPart negative size r'
          else decimalNumber size rest
        | [] => decimalNumber size []
    else if b = ascii 'e' || b = ascii 'E' then exponentPart negative (decimal whole []) r
    else plainNumber s
where
  plainNumber (s : Bytes) : Except Stop (Parsed Json) :=
    match wholeNumber? negative whole with
    | some j => .ok (j, s)
    | none => stopAt .numberOutOfRange s
  decimalNumber (size : Decimal.Scientific) (s : Bytes) : Except Stop (Parsed Json) :=
    match size.quick? negative with
    | some x => .ok (.float x, s)
    | none => stopAt .numberOutOfRange s

/-- A number after its sign. A leading zero stands alone before the point. -/
def unsigned (negative : Bool) (s : Bytes) : Except Stop (Parsed Json) :=
  match s with
  | [] => stopAt .endInValue []
  | b :: r =>
    if b = ascii '0' then
      match r with
      | d :: _ => if isDigit d then stopPast .invalidNumber r else afterDigits negative [b] r
      | [] => afterDigits negative [b] r
    else if isDigit b then afterDigits negative (s.takeWhile isDigit) (s.dropWhile isDigit)
    else stopAt .invalidNumber r

def number (s : Bytes) : Except Stop (Parsed Json) :=
  match s with
  | b :: r => if b = ascii '-' then unsigned true r else unsigned false s
  | [] => unsigned false s

def hexValue? (b : UInt8) : Option Nat :=
  if isDigit b then some (b.toNat - 48)
  else if 0x61 ≤ b && b ≤ 0x66 then some (b.toNat - 87)
  else if 0x41 ≤ b && b ≤ 0x46 then some (b.toNat - 55)
  else none

def hexQuad : Bytes → Except Stop (Parsed Nat)
  | a :: b :: c :: d :: s =>
    match hexValue? a, hexValue? b, hexValue? c, hexValue? d with
    | some a, some b, some c, some d => .ok (((a * 16 + b) * 16 + c) * 16 + d, s)
    | _, _, _, _ => stopAt .invalidEscape s
  | _ => stopAt .endInString []

/-- Read one of the two bytes of the mark that starts the second half of a surrogate pair. -/
def pairMark (c : Char) : Bytes → Except Stop Bytes
  | [] => stopAt .endInString []
  | b :: s => if b = ascii c then .ok s else stopAt .unfinishedSurrogatePair s

/-- The character of an escape by code unit; a pair of surrogates makes one character. -/
def unicodeEscape (s : Bytes) : Except Stop (Parsed Char) := do
  let (high, s) ← hexQuad s
  if 0xdc00 ≤ high ∧ high ≤ 0xdfff then stopAt .loneSurrogate s
  else if 0xd800 ≤ high ∧ high ≤ 0xdbff then do
    let s ← pairMark '\\' s
    let s ← pairMark 'u' s
    let (low, s) ← hexQuad s
    if low < 0xdc00 ∨ 0xdfff < low then stopAt .loneSurrogate s
    else return (Char.ofNat ((high - 0xd800) * 0x400 + (low - 0xdc00) + 0x10000), s)
  else return (Char.ofNat high, s)

def escape : Bytes → Except Stop (Parsed Char)
  | [] => stopAt .endInString []
  | b :: s =>
    if b = ascii '"' then .ok ('"', s)
    else if b = ascii '\\' then .ok ('\\', s)
    else if b = ascii '/' then .ok ('/', s)
    else if b = ascii 'b' then .ok ('\x08', s)
    else if b = ascii 'f' then .ok ('\x0c', s)
    else if b = ascii 'n' then .ok ('\n', s)
    else if b = ascii 'r' then .ok ('\r', s)
    else if b = ascii 't' then .ok ('\t', s)
    else if b = ascii 'u' then unicodeEscape s
    else stopAt .invalidEscape s

/-- A byte that stands for itself, or for part of a character, inside a string. -/
def isStringByte (b : UInt8) : Bool := 0x20 ≤ b && b != ascii '"' && b != ascii '\\'

/-- Stop at a byte that starts no character, unless the string ends too early behind it: that is
told first. -/
def badByte {α : Type} (s : Bytes) : Except Stop α :=
  match s.dropWhile isStringByte with
  | [] => stopAt .endInString []
  | b :: rest => if b < 0x20 then stopAt .controlCharacter rest else stopPast .invalidCodePoint s

/-- The characters up to the closing quote, behind those read before (last one first). The first
argument bounds the number of characters. -/
def stringChars : Bytes → List Char → Bytes → Except Stop (Parsed (List Char))
  | [], _, _ => stopAt .endInString []
  | _ :: _, _, [] => stopAt .endInString []
  | _ :: fuel, done, b :: s =>
    if b = ascii '"' then .ok (done.reverse, s)
    else if b = ascii '\\' then
      match escape s with
      | .ok (c, rest) => stringChars fuel (c :: done) rest
      | .error e => .error e
    else if b < 0x20 then stopAt .controlCharacter s
    else
      match Utf8.decodeChar? (b :: s) with
      | some (c, rest) => stringChars fuel (c :: done) rest
      | none => badByte (b :: s)

def string (s : Bytes) : Except Stop (Parsed String) := do
  let (cs, rest) ← stringChars (0 :: s) [] s
  return (String.ofList cs, rest)

/-- The items of a list up to the closing bracket. The first argument bounds their number. -/
def items (item : Bytes → Except Stop (Parsed Json)) :
    Bytes → Bool → Bytes → Except Stop (Parsed (List Json))
  | [], _, _ => stopAt .endInList []
  | _ :: fuel, first, s =>
    match skipSpace s with
    | [] => stopAt .endInList []
    | b :: r =>
      if b = ascii ']' then .ok ([], r)
      else if first then more fuel (b :: r)
      else if b = ascii ',' then
        match skipSpace r with
        | [] => stopAt .endInValue []
        | c :: r' =>
          if c = ascii ']' then stopPast .trailingComma (c :: r') else more fuel (c :: r')
      else stopPast .expectedCommaInList (b :: r)
where
  more (fuel : Bytes) (s : Bytes) : Except Stop (Parsed (List Json)) := do
    let (j, s) ← item s
    let (js, s) ← items item fuel false s
    return (j :: js, s)

def colon (s : Bytes) : Except Stop Bytes :=
  match skipSpace s with
  | [] => stopAt .endInObject []
  | b :: r => if b = ascii ':' then .ok r else stopPast .expectedColon (b :: r)

/-- The members of an object up to the closing brace, in the order of the text. The first argument
bounds their number. -/
def members (item : Bytes → Except Stop (Parsed Json)) :
    Bytes → Bool → Bytes → Except Stop (Parsed (List (String × Json)))
  | [], _, _ => stopAt .endInObject []
  | _ :: fuel, first, s =>
    match skipSpace s with
    | [] => stopAt .endInObject []
    | b :: r =>
      if b = ascii '\x7d' then .ok ([], r)
      else if first then
        if b = ascii '"' then more fuel r else stopPast .keyNotString (b :: r)
      else if b = ascii ',' then
        match skipSpace r with
        | [] => stopAt .endInValue []
        | c :: r' =>
          if c = ascii '"' then more fuel r'
          else if c = ascii '\x7d' then stopPast .trailingComma (c :: r')
          else stopPast .keyNotString (c :: r')
      else stopPast .expectedCommaInObject (b :: r)
where
  more (fuel : Bytes) (s : Bytes) : Except Stop (Parsed (List (String × Json))) := do
    let (k, s) ← string s
    let s ← colon s
    let (j, s) ← item s
    let (rest, s) ← members item fuel false s
    return ((k, j) :: rest, s)

def valueWith (container : Bytes → Except Stop (Parsed Json)) (s : Bytes) :
    Except Stop (Parsed Json) :=
  match skipSpace s with
  | [] => stopAt .endInValue []
  | b :: r =>
    if b = ascii 'n' then (word [ascii 'u', ascii 'l', ascii 'l'] r).map (Json.null, ·)
    else if b = ascii 't' then (word [ascii 'r', ascii 'u', ascii 'e'] r).map (Json.bool true, ·)
    else if b = ascii 'f' then
      (word [ascii 'a', ascii 'l', ascii 's', ascii 'e'] r).map (Json.bool false, ·)
    else if b = ascii '"' then (string r).map fun p => (Json.text p.1, p.2)
    else if b = ascii '-' || isDigit b then number (b :: r)
    else if b = ascii '[' || b = ascii '\x7b' then container (b :: r)
    else stopPast .expectedValue (b :: r)

/-- A list or an object, from its opening bracket on, with values read by the reader given. -/
def containerWith (item : Bytes → Except Stop (Parsed Json)) :
    Bytes → Except Stop (Parsed Json)
  | [] => stopAt .endInValue []
  | b :: s =>
    if b = ascii '[' then (items item (b :: s) true s).map fun p => (Json.list p.1, p.2)
    else (members item (b :: s) true s).map fun p => (Json.ofMembers p.1, p.2)

/-- A value with at most `depth` containers nested in one another. -/
def value : Nat → Bytes → Except Stop (Parsed Json)
  | 0, s => valueWith (stopPast .tooDeep) s
  | depth + 1, s => valueWith (containerWith (value depth)) s

/-- A cause with its place: lines and columns count from one, columns count bytes. -/
structure ReadError where
  cause : Cause
  line : Nat
  column : Nat
  deriving DecidableEq, Repr

def ReadError.message (e : ReadError) : String :=
  s!"{e.cause.message} at line {e.line} column {e.column}"

def ReadError.behind (cause : Cause) (text : Bytes) (n : Nat) : ReadError :=
  let front := text.take n
  ⟨cause, front.count 0x0a + 1, (front.reverse.takeWhile (· != 0x0a)).length⟩

/-- Nothing but blanks may follow a value. -/
def wholeText (depth : Nat) (text : Bytes) : Except Stop Json := do
  let (j, rest) ← value depth text
  match skipSpace rest with
  | [] => return j
  | b :: r => stopPast .trailingCharacters (b :: r)

def readWithin (depth : Nat) (text : Bytes) : Except ReadError Json :=
  (wholeText depth text).mapError fun e => .behind e.cause text (text.length - e.left)

/-- One container fewer than the first that is refused. -/
def depthLimit : Nat := 127

def read (text : Bytes) : Except ReadError Json := readWithin depthLimit text

end SiteAtlas.Json
