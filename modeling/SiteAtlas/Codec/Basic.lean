import SiteAtlas.Codec.Fault

/-!
Codecs: the JSON form of a type and the way back. The codecs of this module are those of scalars,
lists, pairs, optional values and tables; shapes of records build on them.

Integers are never coerced: a float, a text or a number out of range is refused.
-/
namespace SiteAtlas

/-- How a type is written as JSON and read back. -/
structure Codec (α : Type) where
  encode : α → Json
  decode : Json → Except Fault α

namespace Codec

variable {α β : Type}

def refuse (j : Json) (want : String) : Except Fault α := .error (.wrongType (.ofJson j) want)

/-- The same JSON form for a type that corresponds to another. -/
def imap (c : Codec α) (make : α → β) (back : β → α) : Codec β where
  encode b := c.encode (back b)
  decode j := (c.decode j).map make

def any : Codec Json := ⟨id, .ok⟩

def bool : Codec Bool where
  encode := .bool
  decode
    | .bool b => .ok b
    | j => refuse j "a boolean"

/-- A text, under the name that a refusal gives it. -/
def textAs (want : String) : Codec String where
  encode := .text
  decode
    | .text s => .ok s
    | j => refuse j want

def text : Codec String := textAs "a string"

/-- A double; one that is not finite has no number and is written as null. Integers are taken as
their nearest double. -/
def double : Codec Float where
  encode x := if Decimal.isFinite x then .float x else .null
  decode
    | .float x => .ok x
    | .int n => .ok (Float.ofInt n)
    | j => refuse j "f64"

def natBelow (want : String) (limit : Nat) : Codec Nat where
  encode n := .int n
  decode
    | .int n => if 0 ≤ n ∧ n < limit then .ok n.toNat else .error (.wrongValue (.int n) want)
    | j => refuse j want

def word8 : Codec UInt8 := (natBelow "u8" UInt8.size).imap UInt8.ofNat UInt8.toNat

def word16 : Codec UInt16 := (natBelow "u16" UInt16.size).imap UInt16.ofNat UInt16.toNat

def word32 : Codec UInt32 := (natBelow "u32" UInt32.size).imap UInt32.ofNat UInt32.toNat

def word64 : Codec UInt64 := (natBelow "u64" UInt64.size).imap UInt64.ofNat UInt64.toNat

/-- Null stands for a missing value. -/
def optional (c : Codec α) : Codec (Option α) where
  encode
    | none => .null
    | some a => c.encode a
  decode
    | .null => .ok none
    | j => (c.decode j).map some

def list (c : Codec α) : Codec (List α) where
  encode xs := .list (xs.map c.encode)
  decode
    | .list js => js.mapM c.decode
    | j => refuse j "a sequence"

/-- A list of exactly two values, under the names that refusals of its kind and length give it. -/
def pairAs (want wantLength : String) (c : Codec α) (d : Codec β) : Codec (α × β) where
  encode p := .list [c.encode p.1, d.encode p.2]
  decode
    | .list [] => .error (.wrongLength 0 wantLength)
    | .list [j] => do
      let _ ← c.decode j
      .error (.wrongLength 1 wantLength)
    | .list (j :: k :: rest) => do
      let a ← c.decode j
      let b ← d.decode k
      if rest.isEmpty then return (a, b)
      else .error (.wrongLength (rest.length + 2) "fewer elements in array")
    | j => refuse j want

def pair (c : Codec α) (d : Codec β) : Codec (α × β) :=
  pairAs "a tuple of size 2" "a tuple of size 2" c d

/-- How the keys of a table are written as member names. -/
structure Key (κ : Type) where
  write : κ → String
  read : String → Except Fault κ

namespace Key

def name : Key String := ⟨id, .ok⟩

/-- Decimal text of a byte; the text is read as a JSON number. -/
def byte : Key UInt8 where
  write b := toString b.toNat
  read key := do
    let s := Utf8.encode key.toList
    match s with
    | [] => throw .notNumberKey
    | b :: _ => if b ≠ Json.ascii '-' ∧ ¬ Json.isDigit b then throw .notNumberKey
    match Json.number s with
    | .error e => throw (.keySyntax (.behind e.cause s (s.length - e.left)))
    | .ok (j, rest) =>
      match word8.decode j with
      | .error fault => throw (.inKey fault (s.length - rest.length))
      | .ok b => if rest.isEmpty then return b else throw .notNumberKey

end Key

def readMembers {κ : Type} [Ord κ] [Std.TransOrd κ] [Std.LawfulEqOrd κ] (key : Key κ)
    (c : Codec α) : List (String × Json) → Table κ α → Except Fault (Table κ α)
  | [], t => .ok t
  | (name, j) :: rest, t => do
    let k ← key.read name
    let a ← c.decode j
    readMembers key c rest (t.insert k a)

def table {κ : Type} [Ord κ] [Std.TransOrd κ] [Std.LawfulEqOrd κ] (key : Key κ) (c : Codec α) :
    Codec (Table κ α) where
  encode t := .ofMembers (t.entries.map fun e => (key.write e.1, c.encode e.2))
  decode
    | .object members => readMembers key c members .empty
    | j => refuse j "a map"

/-- An instant: its text, read from a text or from a number of seconds. -/
def instant : Codec Time.Instant where
  encode t := .text t.text
  decode
    | .text s => (Time.Instant.ofText s).mapError (.badInstant s)
    | .int n => ofSeconds (Float.ofInt n)
    | .float x => ofSeconds x
    | _ => .error .noInstant
where
  ofSeconds (x : Float) : Except Fault Time.Instant :=
    match Time.Instant.ofSeconds? x with
    | some t => .ok t
    | none => .error (.instantOutOfRange x)

end Codec

end SiteAtlas
