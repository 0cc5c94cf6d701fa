import SiteAtlas.Error.ClientError

/-!
Feature vectors. A vector has 128 dimensions, of which only those with a value are held; every other
one counts as zero. Dimensions beyond the last are held as well, but have no place in the dense
form.
-/
namespace SiteAtlas

structure Features where
  table : Table UInt8 Float
  deriving Inhabited

namespace Features

def empty : Features := ⟨.empty⟩

def get (f : Features) (dimension : UInt8) : Float := (f.table.get? dimension).getD 0.0

def insert (f : Features) (dimension : UInt8) (value : Float) : Features :=
  ⟨f.table.insert dimension value⟩

/-- The vector of a list of dimensions with values; of equal dimensions the last one counts. -/
def ofList (pairs : List (UInt8 × Float)) : Features := ⟨.ofList pairs⟩

def toList (f : Features) : List (UInt8 × Float) := f.table.entries

def size (f : Features) : Nat := f.table.size

def isEmpty (f : Features) : Bool := f.table.isEmpty

/-- All dimensions in order: a zero vector in which the values held are set. -/
def dense (f : Features) : List Float :=
  f.toList.foldl (fun slots e => slots.set e.1.toNat e.2) (List.replicate featureDimensions 0.0)

/-- The dense values added up in order. A sum starts from the negative zero. -/
def denseSum (f : Features) : Float := f.dense.foldl (· + ·) (-0.0)

/-- An object whose keys are the dimensions in decimal. -/
def codec : Codec Features := (Codec.table Codec.Key.byte Codec.double).imap Features.mk table

@[simp] theorem get_empty (dimension : UInt8) : empty.get dimension = 0.0 := rfl

@[simp] theorem get_insert_self (f : Features) (dimension : UInt8) (value : Float) :
    (f.insert dimension value).get dimension = value := by
  simp [get, insert]

theorem get_insert_of_ne (f : Features) {dimension other : UInt8} (value : Float)
    (h : other ≠ dimension) : (f.insert dimension value).get other = f.get other := by
  simp [get, insert, Table.get?_insert_of_ne _ _ h]

end Features

end SiteAtlas
