import SiteAtlas.Text.Utf8

/-!
Strings of TOML: between quotes, with escapes, or between apostrophes, as they are; both kinds on
one line or, with three marks on each side, on several.

A reader takes the characters that are left and gives its result with those behind it.
-/
namespace SiteAtlas.Toml

abbrev Parsed (α : Type) := α × List Char

def isSpace (c : Char) : Bool := c == ' ' || c == '\t'

/-- Characters that stand for themselves in comments and on the lines of strings. -/
def isPlain (c : Char) : Bool := c == '\t' || (0x20 ≤ c.toNat && c.toNat ≠ 0x7f)

def hexValue? (c : Char) : Option Nat :=
  if '0' ≤ c && c ≤ '9' then some (c.toNat - 48)
  else if 'a' ≤ c && c ≤ 'f' then some (c.toNat - 87)
  else if 'A' ≤ c && c ≤ 'F' then some (c.toNat - 55)
  else none

def hexNumber? (cs : List Char) : Option Nat :=
  cs.foldlM (fun n c => (hexValue? c).map (n * 16 + ·)) 0

/-- The character with so many hexadecimal digits at the front. -/
def codePoint (digits : Nat) (cs : List Char) : Option (Parsed Char) := do
  if cs.length < digits then none
  let c ← Utf8.charOf? (← hexNumber? (cs.take digits))
  return (c, cs.drop digits)

def escape : List Char → Option (Parsed Char)
  | 'b' :: cs => some ('\x08', cs)
  | 't' :: cs => some ('\t', cs)
  | 'n' :: cs => some ('\n', cs)
  | 'f' :: cs => some ('\x0c', cs)
  | 'r' :: cs => some ('\r', cs)
  | 'e' :: cs => some ('\x1b', cs)
  | '"' :: cs => some ('"', cs)
  | '\\' :: cs => some ('\\', cs)
  | 'x' :: cs => codePoint 2 cs
  | 'u' :: cs => codePoint 4 cs
  | 'U' :: cs => codePoint 8 cs
  | _ => none

def cons (c : Char) (p : Option (Parsed (List Char))) : Option (Parsed (List Char)) :=
  p.map fun (s, rest) => (c :: s, rest)

def basicLine : Nat → List Char → Option (Parsed (List Char))
  | 0, _ => none
  | _ + 1, [] => none
  | _ + 1, '"' :: cs => some ([], cs)
  | fuel + 1, '\\' :: cs => do
    let (c, cs) ← escape cs
    cons c (basicLine fuel cs)
  | fuel + 1, c :: cs => if isPlain c then cons c (basicLine fuel cs) else none

def literalLine : List Char → Option (Parsed (List Char))
  | [] => none
  | '\'' :: cs => some ([], cs)
  | c :: cs => if isPlain c then cons c (literalLine cs) else none

def lineEnd : List Char → Option (List Char)
  | '\n' :: cs => some cs
  | '\r' :: '\n' :: cs => some cs
  | _ => none

/-- A line end right after the opening marks does not count. -/
def dropFirstLineEnd (cs : List Char) : List Char := (lineEnd cs).getD cs

/-- Up to two marks in front of the closing three belong to the string. -/
def closing (mark : Char) (cs : List Char) : Option (Parsed (List Char)) :=
  let marks := (cs.takeWhile (· == mark)).length
  if marks < 3 then none
  else
    let inside := min (marks - 3) 2
    some (List.replicate inside mark, cs.drop (inside + 3))

def dropBlankLines : List Char → List Char
  | ' ' :: cs => dropBlankLines cs
  | '\t' :: cs => dropBlankLines cs
  | '\n' :: cs => dropBlankLines cs
  | '\r' :: '\n' :: cs => dropBlankLines cs
  | cs => cs

/-- What follows a backslash at the end of a line, if it stands at one. -/
def continued? (cs : List Char) : Option (List Char) :=
  (lineEnd (cs.dropWhile isSpace)).map dropBlankLines

def basicLines : Nat → List Char → Option (Parsed (List Char))
  | 0, _ => none
  | _ + 1, [] => none
  | fuel + 1, '"' :: cs =>
    match closing '"' ('"' :: cs) with
    | some result => some result
    | none => cons '"' (basicLines fuel cs)
  | fuel + 1, '\\' :: cs =>
    match continued? cs with
    | some cs => basicLines fuel cs
    | none => do
      let (c, cs) ← escape cs
      cons c (basicLines fuel cs)
  | fuel + 1, '\n' :: cs => cons '\n' (basicLines fuel cs)
  | fuel + 1, '\r' :: '\n' :: cs => cons '\r' (cons '\n' (basicLines fuel cs))
  | fuel + 1, c :: cs => if isPlain c then cons c (basicLines fuel cs) else none

def literalLines : List Char → Option (Parsed (List Char))
  | [] => none
  | '\'' :: cs =>
    match closing '\'' ('\'' :: cs) with
    | some result => some result
    | none => cons '\'' (literalLines cs)
  | '\n' :: cs => cons '\n' (literalLines cs)
  | '\r' :: '\n' :: cs => cons '\r' (cons '\n' (literalLines cs))
  | c :: cs => if isPlain c then cons c (literalLines cs) else none

/-- A string on one line, as keys and values may be. -/
def quotedLine : List Char → Option (Parsed (List Char))
  | '"' :: cs => basicLine (cs.length + 1) cs
  | '\'' :: cs => literalLine cs
  | _ => none

def string : List Char → Option (Parsed (List Char))
  | '"' :: '"' :: '"' :: cs => basicLines (cs.length + 1) (dropFirstLineEnd cs)
  | '\'' :: '\'' :: '\'' :: cs => literalLines (dropFirstLineEnd cs)
  | cs => quotedLine cs

end SiteAtlas.Toml
