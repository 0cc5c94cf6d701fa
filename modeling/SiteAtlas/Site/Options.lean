import SiteAtlas.Codec.Fault

/-!
What operations on a site may be told: how much to visit, what routes to prefer, what to render
again and what to watch.
-/
namespace SiteAtlas

structure MapOptions where
  maxNodes : UInt32 := 50000
  maxRender : UInt32 := 200
  /-- in milliseconds -/
  maxTime : UInt64 := 10000
  respectRobots : Bool := true
  deriving DecidableEq, Repr, Inhabited

inductive Minimize where
  | hops | weight
  deriving DecidableEq, Repr

def Minimize.name : Minimize → String
  | .hops => "hops"
  | .weight => "weight"

structure PathOptions where
  /-- flags of nodes that a route must not pass -/
  avoid : List String := []
  minimize : Minimize := .hops
  deriving DecidableEq, Repr

/-- Which nodes to render again; each part adds nodes. -/
structure RefreshSelector where
  nodes : Option (List UInt32) := none
  cluster : Option UInt32 := none
  /-- nodes that are less fresh than this -/
  staleThreshold : Option Float := none

structure WatchSpec where
  nodes : Option (List UInt32) := none
  cluster : Option UInt32 := none
  /-- the dimensions to look at -/
  features : Option (List UInt8) := none
  /-- in milliseconds -/
  interval : UInt64 := 60000
  deriving DecidableEq, Repr

end SiteAtlas
