import SiteAtlas.Table

/-!
JSON values. An object is a list of members; in a canonical value the keys of every object ascend
strictly, integers fit 64 bits and floats are finite, which is what reading text produces.
-/
namespace SiteAtlas

/-- A JSON value. Integers and floats are different numbers: `1` and `1.0` stay apart. -/
inductive Json where
  | null
  | bool (value : Bool)
  | int (value : Int)
  | float (value : Float)
  | text (value : String)
  | list (items : List Json)
  | object (members : List (String × Json))
  deriving Inhabited

namespace Json

/-- The object with these members; keys are sorted and of equal keys the last one counts. -/
def ofMembers (members : List (String × Json)) : Json := .object (sortEntries members)

def nat (n : Nat) : Json := .int n

/-- The integers of the wire: signed 64 bits from below, unsigned 64 bits from above. -/
def IntFits (n : Int) : Prop := -9223372036854775808 ≤ n ∧ n < 18446744073709551616

instance (n : Int) : Decidable (IntFits n) := inferInstanceAs (Decidable (_ ∧ _))

/-- Set a member of an object; any other value stays as it is. -/
def withMember (key : String) (value : Json) : Json → Json
  | .object members => .object (putEntry key value members)
  | other => other

def member? (key : String) : Json → Option Json
  | .object members => entryAt? key members
  | _ => none

mutual

/-- How many containers are nested in one another: a scalar has depth 0, `[]` has depth 1. -/
def depth : Json → Nat
  | .list items => itemsDepth items + 1
  | .object members => membersDepth members + 1
  | _ => 0

def itemsDepth : List Json → Nat
  | [] => 0
  | j :: rest => max (depth j) (itemsDepth rest)

def membersDepth : List (String × Json) → Nat
  | [] => 0
  | (_, j) :: rest => max (depth j) (membersDepth rest)

end

mutual

def FloatFree : Json → Prop
  | .float _ => False
  | .list items => ItemsFloatFree items
  | .object members => MembersFloatFree members
  | _ => True

def ItemsFloatFree : List Json → Prop
  | [] => True
  | j :: rest => FloatFree j ∧ ItemsFloatFree rest

def MembersFloatFree : List (String × Json) → Prop
  | [] => True
  | (_, j) :: rest => FloatFree j ∧ MembersFloatFree rest

end

mutual

/-- Integers fit, keys ascend strictly, and floats are finite. -/
def Canonical : Json → Prop
  | .int n => IntFits n
  | .float x => x.isFinite = true
  | .list items => ItemsCanonical items
  | .object members => Ascending members ∧ MembersCanonical members
  | _ => True

def ItemsCanonical : List Json → Prop
  | [] => True
  | j :: rest => Canonical j ∧ ItemsCanonical rest

def MembersCanonical : List (String × Json) → Prop
  | [] => True
  | (_, j) :: rest => Canonical j ∧ MembersCanonical rest

end

end Json

end SiteAtlas
