import SiteAtlas.Page.Features

/-!
What changes on a site: by rendering nodes again, by acting on a page, and while it is watched.
-/
namespace SiteAtlas

structure RefreshResult where
  updatedCount : UInt32
  changedNodes : List UInt32
  deriving DecidableEq, Repr, Inhabited

namespace RefreshResult

def shape : Shape RefreshResult where
  title := "RefreshResult"
  blank := ⟨0, []⟩
  fields := [
    ⟨"updated_count", [], .defaulted, Codec.word32, updatedCount,
      fun v r => { r with updatedCount := v }⟩,
    ⟨"changed_nodes", [], .defaulted, Codec.list Codec.word32, changedNodes,
      fun v r => { r with changedNodes := v }⟩]

def display (r : RefreshResult) : String :=
  s!"RefreshResult(updated={r.updatedCount}, " ++
    s!"changed={Text.bracketed (r.changedNodes.map toString)})"

end RefreshResult

/-- The outcome of an action. An answer without an error may still report a failed action. -/
structure ActResult where
  success : Bool
  newUrl : Option String
  features : Features
  deriving Inhabited

namespace ActResult

def shape : Shape ActResult where
  title := "ActResult"
  blank := ⟨false, none, .empty⟩
  fields := [
    ⟨"success", [], .defaulted, Codec.bool, success, fun v r => { r with success := v }⟩,
    ⟨"new_url", [], .defaulted, Codec.optional Codec.text, newUrl,
      fun v r => { r with newUrl := v }⟩,
    ⟨"features", [], .defaulted, Features.codec, features, fun v r => { r with features := v }⟩]

def display (r : ActResult) : String :=
  s!"ActResult(success={r.success}" ++
    (match r.newUrl with
      | some url => s!", new_url={Text.quoted url})"
      | none => ")")

end ActResult

/-- A change seen on a node: for each dimension that changed, its old and its new value. -/
structure WatchDelta where
  node : UInt32
  changed : Table UInt8 (Float × Float)
  seen : Time.Instant

namespace WatchDelta

def shape : Shape WatchDelta where
  title := "WatchDelta"
  blank := ⟨0, .empty, ⟨0, 0⟩⟩
  fields := [
    ⟨"node", [], .required, Codec.word32, node, fun v r => { r with node := v }⟩,
    ⟨"changed_features", [], .defaulted,
      Codec.table Codec.Key.byte (Codec.pair Codec.double Codec.double), changed,
      fun v r => { r with changed := v }⟩,
    ⟨"timestamp", [], .required, Codec.instant, seen, fun v r => { r with seen := v }⟩]

def display (d : WatchDelta) : String :=
  s!"WatchDelta(node={d.node}, " ++
    s!"changed_dims={Text.bracketed (d.changed.keys.map toString)})"

end WatchDelta

end SiteAtlas
