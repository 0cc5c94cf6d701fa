import SiteAtlas.Codec.Basic

/-!
Shapes of records: named fields, some of which may be left out, read from an object or, in the order
of declaration, from a list.

An object is read member by member in key order. Members that no field knows are skipped, and a
field that occurs twice, also under an alias, is refused.
-/
namespace SiteAtlas

inductive Presence where
  /-- both in an object and at the end of a list -/
  | defaulted
  /-- in an object only -/
  | nullable
  /-- never -/
  | required
  deriving DecidableEq, Repr

/-- One field of a record: its names, its codec, and its place in the record. -/
structure Field (ρ : Type) where
  name : String
  aliases : List String
  presence : Presence
  {α : Type}
  codec : Codec α
  get : ρ → α
  put : α → ρ → ρ

namespace Field

variable {ρ : Type}

/-- A name under which the field is read. -/
def Known (f : Field ρ) (key : String) : Prop := key = f.name ∨ key ∈ f.aliases

instance (f : Field ρ) (key : String) : Decidable (f.Known key) :=
  inferInstanceAs (Decidable (_ ∨ _))

def absorb (f : Field ρ) (j : Json) (r : ρ) : Except Fault ρ := (f.codec.decode j).map (f.put · r)

def member (f : Field ρ) (r : ρ) : String × Json := (f.name, f.codec.encode (f.get r))

end Field

/-- A record type's JSON form: the name that refusals use, the record of all defaults, and the
fields in the order of declaration. -/
structure Shape (ρ : Type) where
  title : String
  blank : ρ
  fields : List (Field ρ)

namespace Shape

variable {ρ : Type}

def field? (s : Shape ρ) (key : String) : Option (Field ρ) := s.fields.find? (·.Known key)

/-- The first field that must be there and was not seen. -/
def missing? (s : Shape ρ) (seen : List String) : Option (Field ρ) :=
  s.fields.find? fun f => f.presence = .required ∧ f.name ∉ seen

/-- Read members into a record, with the names of the fields read so far. -/
def readMembers (s : Shape ρ) : List (String × Json) → List String → ρ → Except Fault ρ
  | [], seen, r =>
    match s.missing? seen with
    | some f => .error (.missingField f.name)
    | none => .ok r
  | (key, j) :: rest, seen, r =>
    match s.field? key with
    | none => readMembers s rest seen r
    | some f =>
      if f.name ∈ seen then .error (.duplicateField f.name)
      else do
        let r ← f.absorb j r
        readMembers s rest (f.name :: seen) r

def wantLength (s : Shape ρ) : String :=
  s!"struct {s.title} with {s.fields.length} element" ++ (if s.fields.length = 1 then "" else "s")

/-- Read list items into the fields that are left. -/
def readItems (s : Shape ρ) (total : Nat) :
    Nat → List (Field ρ) → List Json → ρ → Except Fault ρ
  | _, [], [], r => .ok r
  | _, [], _ :: _, _ => .error (.wrongLength total "fewer elements in array")
  | index, f :: fields, [], r =>
    if f.presence = .defaulted then readItems s total (index + 1) fields [] r
    else .error (.wrongLength index s.wantLength)
  | index, f :: fields, j :: js, r => do
    let r ← f.absorb j r
    readItems s total (index + 1) fields js r

def decode (s : Shape ρ) : Json → Except Fault ρ
  | .object members => s.readMembers members [] s.blank
  | .list items => s.readItems items.length 0 s.fields items s.blank
  | j => .error (.wrongType (.ofJson j) ("struct " ++ s.title))

/-- All fields, those without a value as null. -/
def encode (s : Shape ρ) (r : ρ) : Json := .ofMembers (s.fields.map (·.member r))

def codec (s : Shape ρ) : Codec ρ := ⟨s.encode, s.decode⟩

end Shape

end SiteAtlas
