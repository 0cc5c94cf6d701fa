import SiteAtlas.Page.Features
import SiteAtlas.Site.Domain

/-!
Queries for nodes of a site: page types, bounds on features, flags, an order and a limit.

A query is checked when it is put into a request: its dimensions must exist and its thresholds must
be finite.
-/
namespace SiteAtlas

inductive Bound where
  | gt | lt | min | max
  deriving DecidableEq, Repr

namespace Bound

def name : Bound → String
  | .gt => "gt"
  | .lt => "lt"
  | .min => "min"
  | .max => "max"

/-- The place in the order in which bounds of one dimension are checked. -/
def rank : Bound → Nat
  | .gt => 0
  | .lt => 1
  | .min => 2
  | .max => 3

instance : Ord Bound := ⟨fun a b => compare a.rank b.rank⟩

instance : Std.TransOrd Bound where
  eq_swap {a b} := by
    change compare a.rank b.rank = (compare b.rank a.rank).swap
    exact Std.OrientedCmp.eq_swap
  isLE_trans {a b c} h k := by
    change (compare a.rank c.rank).isLE
    exact Std.TransCmp.isLE_trans h k

instance : Std.LawfulEqOrd Bound where
  eq_of_compare {a b} h := by
    have h : a.rank = b.rank := Nat.compare_eq_eq.1 h
    cases a <;> cases b <;> simp_all [rank]

end Bound

inductive PageFilter where
  | one (type : UInt8)
  | many (types : List UInt8)
  deriving DecidableEq, Repr

def PageFilter.toList : PageFilter → List UInt8
  | .one type => [type]
  | .many types => types

inductive Direction where
  | asc | desc
  deriving DecidableEq, Repr

def Direction.name : Direction → String
  | .asc => "asc"
  | .desc => "desc"

structure SortBy where
  dimension : UInt8
  direction : Direction
  deriving DecidableEq, Repr

structure Query where
  pageTypes : Option PageFilter
  features : Table UInt8 (Table Bound Float)
  flags : Table String Bool
  sortBy : Option SortBy
  limit : UInt32

namespace Query

/-- A query that every node answers, with the usual limit. -/
def default : Query := ⟨none, .empty, .empty, none, 100⟩

instance : Inhabited Query := ⟨default⟩

def withPageTypes (q : Query) (filter : PageFilter) : Query := { q with pageTypes := some filter }

/-- Bound a feature; the last threshold for a bound of a dimension counts. -/
def withFeature (q : Query) (dimension : UInt8) (bound : Bound) (threshold : Float) : Query :=
  let bounds := (q.features.get? dimension).getD .empty
  { q with features := q.features.insert dimension (bounds.insert bound threshold) }

def withFlag (q : Query) (name : String) (value : Bool) : Query :=
  { q with flags := q.flags.insert name value }

def withSort (q : Query) (dimension : UInt8) (direction : Direction) : Query :=
  { q with sortBy := some ⟨dimension, direction⟩ }

def withLimit (q : Query) (limit : UInt32) : Query := { q with limit := limit }

end Query

def checkDimension (dimension : UInt8) : Except Rejection Unit :=
  if dimension.toNat < featureDimensions then .ok () else .error (.dimension dimension)

def checkFinite (what : Quantity) (value : Float) : Except Rejection Unit :=
  if Decimal.isFinite value then .ok () else .error (.notFinite what value)

def optionalMember {α : Type} (key : String) (json : α → Json) : Option α → List (String × Json)
  | none => []
  | some a => [(key, json a)]

namespace Query

/-- The bounds of one dimension, checked in their order. -/
def boundMembers (bounds : List (Bound × Float)) : Except Rejection (List (String × Json)) :=
  bounds.mapM fun (bound, threshold) => do
    checkFinite .threshold threshold
    return (bound.name, .float threshold)

/-- The bounds of all dimensions in ascending order. A dimension is checked before its bounds. -/
def featureMembers (features : List (UInt8 × Table Bound Float)) :
    Except Rejection (List (String × Json)) :=
  features.mapM fun (dimension, bounds) => do
    checkDimension dimension
    return (toString dimension, .ofMembers (← boundMembers bounds.entries))

def featuresMember (q : Query) : Except Rejection (List (String × Json)) :=
  if q.features.isEmpty then .ok []
  else do return [("features", .ofMembers (← featureMembers q.features.entries))]

def flagsMember (q : Query) : List (String × Json) :=
  if q.flags.isEmpty then []
  else [("flags", .ofMembers (q.flags.entries.map fun f => (f.1, .bool f.2)))]

def sortMember (q : Query) : Except Rejection (List (String × Json)) :=
  match q.sortBy with
  | none => .ok []
  | some sort => do
    checkDimension sort.dimension
    return [("sort_by", .ofMembers [
      ("dimension", .nat sort.dimension.toNat), ("direction", .text sort.direction.name)])]

def members (q : Query) (domain : Domain) : Except Rejection (List (String × Json)) := do
  let features ← q.featuresMember
  let sort ← q.sortMember
  return [("domain", domain.json), ("limit", .nat q.limit.toNat)] ++
    optionalMember "page_type"
      (fun filter => .list (filter.toList.map fun t => .nat t.toNat)) q.pageTypes ++
    features ++ q.flagsMember ++ sort

end Query

end SiteAtlas
