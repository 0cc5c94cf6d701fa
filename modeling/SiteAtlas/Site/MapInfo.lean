import SiteAtlas.Codec.Shape

/-!
What the service says about a site that it mapped.
-/
namespace SiteAtlas

structure MapInfo where
  nodeCount : UInt64
  edgeCount : UInt64
  /-- where the service keeps the map -/
  mapPath : Option String
  /-- the map was there before, and the site was not visited again -/
  cached : Bool
  deriving DecidableEq, Repr, Inhabited

def MapInfo.shape : Shape MapInfo where
  title := "MapInfo"
  blank := ⟨0, 0, none, false⟩
  fields := [
    ⟨"node_count", [], .defaulted, Codec.word64, MapInfo.nodeCount,
      fun v r => { r with nodeCount := v }⟩,
    ⟨"edge_count", [], .defaulted, Codec.word64, MapInfo.edgeCount,
      fun v r => { r with edgeCount := v }⟩,
    ⟨"map_path", [], .defaulted, Codec.optional Codec.text, MapInfo.mapPath,
      fun v r => { r with mapPath := v }⟩,
    ⟨"cached", [], .defaulted, Codec.bool, MapInfo.cached, fun v r => { r with cached := v }⟩]

end SiteAtlas
