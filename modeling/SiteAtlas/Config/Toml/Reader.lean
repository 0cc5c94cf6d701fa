import SiteAtlas.Config.Toml.Scalar
import SiteAtlas.Config.Toml.Tables

/-!
Reading TOML 1.1 documents. A document that is not well-formed has no reading; why is not told.
-/
namespace SiteAtlas.Toml

def skipSpace (cs : List Char) : List Char := cs.dropWhile isSpace

/-- Skip a comment, if there is one. What follows it must be a line end or the end. -/
def skipComment (cs : List Char) : List Char :=
  match cs with
  | '#' :: rest => rest.dropWhile isPlain
  | cs => cs

def skipLines : Nat → List Char → List Char
  | 0, cs => cs
  | fuel + 1, cs =>
    let cs := skipComment (skipSpace cs)
    match lineEnd cs with
    | some cs => skipLines fuel cs
    | none => cs

def skipAll (cs : List Char) : List Char := skipLines (cs.length + 1) cs

def isBareKeyChar (c : Char) : Bool := c.isAlphanum || c == '_' || c == '-'

def simpleKey (cs : List Char) : Option (Parsed String) :=
  match cs.takeWhile isBareKeyChar with
  | [] => (quotedLine cs).map fun (s, rest) => (String.ofList s, rest)
  | name => some (String.ofList name, cs.dropWhile isBareKeyChar)

def dottedKey : Nat → List Char → Option (Parsed (List String))
  | 0, _ => none
  | fuel + 1, cs => do
    let (key, cs) ← simpleKey cs
    match skipSpace cs with
    | '.' :: rest =>
      let (keys, rest) ← dottedKey fuel (skipSpace rest)
      return (key :: keys, rest)
    | rest => return ([key], rest)

def key (cs : List Char) : Option (Parsed (List String)) := dottedKey (cs.length + 1) cs

def assignment (value : List Char → Option (Parsed Toml)) (cs : List Char) :
    Option (Parsed (List String × Toml)) := do
  let (path, cs) ← key cs
  let cs ← expect '=' (skipSpace cs)
  let (v, cs) ← value (skipSpace cs)
  return ((path, v), cs)

/-- Things between brackets, separated by commas; one more comma may follow the last. -/
def sequence {α : Type} (close : Char) (item : List Char → Option (Parsed α)) :
    Nat → List Char → Option (Parsed (List α))
  | 0, _ => none
  | fuel + 1, cs =>
    match skipAll cs with
    | [] => none
    | c :: rest =>
      if c = close then some ([], rest)
      else do
        let (a, rest) ← item (c :: rest)
        match skipAll rest with
        | ',' :: rest =>
          let (as, rest) ← sequence close item fuel rest
          return (a :: as, rest)
        | c :: rest => if c = close then some ([a], rest) else none
        | [] => none

def depthLimit : Nat := 80

/-- A value with at most so many containers nested in one another. -/
def value : Nat → List Char → Option (Parsed Toml)
  | _, '"' :: cs => (string ('"' :: cs)).map fun (s, rest) => (.text (String.ofList s), rest)
  | _, '\'' :: cs => (string ('\'' :: cs)).map fun (s, rest) => (.text (String.ofList s), rest)
  | depth, '[' :: cs =>
    match depth with
    | 0 => none
    | depth + 1 => do
      let (items, rest) ← sequence ']' (value depth) (cs.length + 1) cs
      return (.list items, rest)
  | depth, '\x7b' :: cs =>
    match depth with
    | 0 => none
    | depth + 1 => do
      let (members, rest) ← sequence '\x7d' (assignment (value depth)) (cs.length + 1) cs
      return (.table .inline (← ofAssignments members), rest)
  | _, cs => do
    let (word, rest) := splitWord cs
    return (← ofWord? word, rest)

def header : List Char → Option (Parsed Statement)
  | '[' :: cs => do
    let (path, cs) ← key (skipSpace cs)
    let cs ← expect ']' (skipSpace cs)
    let cs ← expect ']' cs
    return (.element path, cs)
  | cs => do
    let (path, cs) ← key (skipSpace cs)
    let cs ← expect ']' (skipSpace cs)
    return (.table path, cs)

def statement : List Char → Option (Parsed Statement)
  | '[' :: cs => header cs
  | cs => do
    let ((path, v), cs) ← assignment (value depthLimit) cs
    return (.assign path v, cs)

/-- The rest of a line must be blank but for a comment. -/
def endLine (cs : List Char) : Option (List Char) :=
  match skipComment (skipSpace cs) with
  | [] => some []
  | cs => lineEnd cs

def statements : Nat → List Char → Option (List Statement)
  | 0, _ => none
  | fuel + 1, cs =>
    match skipAll cs with
    | [] => some []
    | cs => do
      let (s, cs) ← statement cs
      let cs ← endLine cs
      return s :: (← statements fuel cs)

/-- A mark of the byte order in front of a text does not count. -/
def dropMark : List Char → List Char
  | '\ufeff' :: cs => cs
  | cs => cs

/-- The root table of a document; its keys ascend. -/
def read (text : List Char) : Option Members := do
  let cs := dropMark text
  ofStatements (← statements (cs.length + 1) cs)

end SiteAtlas.Toml
