import SiteAtlas.Json.Value
import SiteAtlas.Decimal.Layout

/-!
JSON text without blanks. Controls are escaped inside strings, so a printed value holds no line end.
-/
namespace SiteAtlas.Json

/-- Floats keep a fraction when written positionally, from `0.00001` up to sixteen digits before
the point; all others have an exponent with its sign. -/
def floatLayout : Decimal.Layout := ⟨some (-5), some 15, ".0", "+"⟩

def natDigits (n : Nat) : List Char := Nat.toDigits 10 n

def intText : Int → List Char
  | .ofNat n => natDigits n
  | .negSucc n => '-' :: natDigits (n + 1)

/-- A float as a number, or null if it is not finite. -/
def floatText (x : Float) : List Char :=
  if Decimal.isFinite x then (Decimal.write floatLayout x).toList else ['n', 'u', 'l', 'l']

def hexDigit (n : Nat) : Char := if n < 10 then Char.ofNat (48 + n) else Char.ofNat (87 + n)

/-- Quotes, backslashes and controls are escaped; nothing else is. -/
def escapeChar (c : Char) : List Char :=
  if c = '"' then ['\\', '"']
  else if c = '\\' then ['\\', '\\']
  else if 0x20 ≤ c.toNat then [c]
  else if c = '\n' then ['\\', 'n']
  else if c = '\r' then ['\\', 'r']
  else if c = '\t' then ['\\', 't']
  else if c.toNat = 8 then ['\\', 'b']
  else if c.toNat = 12 then ['\\', 'f']
  else ['\\', 'u', '0', '0', hexDigit (c.toNat / 16), hexDigit (c.toNat % 16)]

def stringText (s : String) : List Char := '"' :: s.toList.flatMap escapeChar ++ ['"']

mutual

def chars : Json → List Char
  | .null => ['n', 'u', 'l', 'l']
  | .bool true => ['t', 'r', 'u', 'e']
  | .bool false => ['f', 'a', 'l', 's', 'e']
  | .int n => intText n
  | .float x => floatText x
  | .text s => stringText s
  | .list [] => ['[', ']']
  | .list (j :: rest) => '[' :: (chars j ++ itemsChars rest)
  | .object [] => ['\x7b', '\x7d']
  | .object ((k, j) :: rest) => '\x7b' :: (stringText k ++ ':' :: (chars j ++ membersChars rest))

/-- The items after the first one, with the closing bracket. -/
def itemsChars : List Json → List Char
  | [] => [']']
  | j :: rest => ',' :: (chars j ++ itemsChars rest)

def membersChars : List (String × Json) → List Char
  | [] => ['\x7d']
  | (k, j) :: rest => ',' :: (stringText k ++ ':' :: (chars j ++ membersChars rest))

end

def print (j : Json) : String := String.ofList (chars j)

end SiteAtlas.Json
