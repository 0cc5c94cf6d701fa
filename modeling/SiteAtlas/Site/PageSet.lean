import SiteAtlas.Table

/-!
Sets of page types, listed in ascending order without repetition.
-/
namespace SiteAtlas

structure PageSet where
  table : Table UInt8 Unit
  deriving Inhabited

namespace PageSet

def empty : PageSet := ⟨.empty⟩

def ofList (types : List UInt8) : PageSet := ⟨.ofList (types.map fun t => (t, ()))⟩

def toList (s : PageSet) : List UInt8 := s.table.keys

def contains (s : PageSet) (type : UInt8) : Bool := (s.table.get? type).isSome

def size (s : PageSet) : Nat := s.table.size

def union (s t : PageSet) : PageSet := ofList (s.toList ++ t.toList)

def inter (s t : PageSet) : PageSet := ofList (s.toList.filter t.contains)

def diff (s t : PageSet) : PageSet := ofList (s.toList.filter fun type => !t.contains type)

end PageSet

end SiteAtlas
