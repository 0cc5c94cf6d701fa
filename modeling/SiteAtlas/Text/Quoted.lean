import SiteAtlas.Text.Printable

/-!
Quoted texts, as messages show them: between double quotes, with short escapes for the usual
controls and the code point in braces for every other character that is not shown as it is.
-/
namespace SiteAtlas.Text

def hexDigits (n : Nat) : List Char := Nat.toDigits 16 n

/-- The form of one character inside a quoted text. -/
def escapedChar (c : Char) : List Char :=
  match c with
  | '\x00' => ['\\', '0']
  | '\t' => ['\\', 't']
  | '\n' => ['\\', 'n']
  | '\r' => ['\\', 'r']
  | '"' => ['\\', '"']
  | '\\' => ['\\', '\\']
  | c => if isShown c then [c] else ['\\', 'u', '\x7b'] ++ hexDigits c.toNat ++ ['\x7d']

def quoted (s : String) : String :=
  String.ofList ('"' :: s.toList.flatMap escapedChar ++ ['"'])

def bracketed (items : List String) : String :=
  "[" ++ ", ".intercalate items ++ "]"

/-- Hexadecimal with two digits at least, after a leading mark. -/
def hexByte (b : UInt8) : String :=
  let digits := hexDigits b.toNat
  String.ofList ('0' :: 'x' :: List.replicate (2 - digits.length) '0' ++ digits)

end SiteAtlas.Text
