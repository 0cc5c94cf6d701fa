import SiteAtlas.Json.Value

/-!
Values of a TOML document. Dates and times are kept without their content, since no setting has one.
-/
namespace SiteAtlas

/-- How a table came about; it decides what may still be added to it. -/
inductive TableOrigin where
  /-- by a header of its own -/
  | header
  /-- as a parent in the header of another table -/
  | implied
  /-- by a key with dots -/
  | dotted
  /-- between braces -/
  | inline
  deriving DecidableEq, Repr

inductive Toml where
  | bool (value : Bool)
  | int (value : Int)
  | float (value : Float)
  /-- a number too large for any type of numbers -/
  | huge
  | text (value : String)
  | moment
  | list (items : List Toml)
  | table (origin : TableOrigin) (members : List (String × Toml))
  /-- tables under one repeated header, the last one first -/
  | tables (elements : List (List (String × Toml)))
  deriving Inhabited

namespace Toml

/-- The members of a table; their keys ascend. -/
abbrev Members := List (String × Toml)

mutual

/-- Somewhere in the value is a number that is too large. -/
def hasHuge : Toml → Bool
  | .huge => true
  | .list items => itemsHaveHuge items
  | .table _ members => membersHaveHuge members
  | .tables elements => elementsHaveHuge elements
  | _ => false

def itemsHaveHuge : List Toml → Bool
  | [] => false
  | v :: rest => hasHuge v || itemsHaveHuge rest

def membersHaveHuge : List (String × Toml) → Bool
  | [] => false
  | (_, v) :: rest => hasHuge v || membersHaveHuge rest

def elementsHaveHuge : List (List (String × Toml)) → Bool
  | [] => false
  | members :: rest => membersHaveHuge members || elementsHaveHuge rest

end

end Toml

end SiteAtlas
