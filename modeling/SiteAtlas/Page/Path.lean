import SiteAtlas.Page.Opcode

/-!
Routes through the graph of a site.
-/
namespace SiteAtlas

/-- An action that has to be done at a node before a route goes on. -/
structure PathAction where
  node : UInt32
  opcode : Opcode
  deriving DecidableEq, Repr, Inhabited

namespace PathAction

def shape : Shape PathAction where
  title := "PathAction"
  blank := ⟨0, ⟨0, 0⟩⟩
  fields := [
    ⟨"at_node", [], .required, Codec.word32, node, fun v r => { r with node := v }⟩,
    ⟨"opcode", [], .required, Opcode.codec, opcode, fun v r => { r with opcode := v }⟩]

def display (a : PathAction) : String :=
  s!"PathAction(node={a.node}, opcode={a.opcode.display})"

end PathAction

structure Path where
  /-- from the first node to the last, both included -/
  nodes : List UInt32
  weight : Float
  hops : UInt32
  actions : List PathAction
  deriving Inhabited

namespace Path

def shape : Shape Path where
  title := "Path"
  blank := ⟨[], 0.0, 0, []⟩
  fields := [
    ⟨"nodes", [], .defaulted, Codec.list Codec.word32, nodes, fun v r => { r with nodes := v }⟩,
    ⟨"total_weight", [], .defaulted, Codec.double, weight, fun v r => { r with weight := v }⟩,
    ⟨"hops", [], .defaulted, Codec.word32, hops, fun v r => { r with hops := v }⟩,
    ⟨"required_actions", [], .defaulted, Codec.list PathAction.shape.codec, actions,
      fun v r => { r with actions := v }⟩]

def display (p : Path) : String :=
  s!"Path(hops={p.hops}, nodes={Text.bracketed (p.nodes.map toString)}, " ++
    s!"weight={Decimal.fixed 1 p.weight})"

end Path

end SiteAtlas
