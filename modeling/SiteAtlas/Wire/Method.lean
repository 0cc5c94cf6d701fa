import SiteAtlas.Codec.Shape

/-!
The methods of the cartography service and their names on the wire.
-/
namespace SiteAtlas

inductive Method where
  | handshake | status | map | query | pathfind | refresh | act | watch | perceive | auth
  deriving DecidableEq, Repr, Inhabited

namespace Method

def all : List Method :=
  [.handshake, .status, .map, .query, .pathfind, .refresh, .act, .watch, .perceive, .auth]

def name : Method → String
  | .handshake => "handshake"
  | .status => "status"
  | .map => "map"
  | .query => "query"
  | .pathfind => "pathfind"
  | .refresh => "refresh"
  | .act => "act"
  | .watch => "watch"
  | .perceive => "perceive"
  | .auth => "auth"

def ofName? (name : String) : Option Method := all.find? fun m => m.name == name

def ofName (name : String) : Except Fault Method :=
  match ofName? name with
  | some m => .ok m
  | none => .error (.unknownVariant name (all.map Method.name))

/-- A method is its name. An object whose only key is the name, with a null value, is read too. -/
def codec : Codec Method where
  encode m := .text m.name
  decode
    | .text s => ofName s
    | .object [(key, j)] => do
      let m ← ofName key
      match j with
      | .null => return m
      | j => throw (.wrongType (.ofJson j) "unit")
    | .object _ => throw (.wrongValue .map "map with a single key")
    | j => Codec.refuse j "string or map"

end Method

end SiteAtlas
