import SiteAtlas.Codec.Shape

/-!
What the service says about itself.
-/
namespace SiteAtlas

structure PoolStatus where
  active : UInt32
  max : UInt32
  memory : Float
  deriving Inhabited

def PoolStatus.shape : Shape PoolStatus where
  title := "PoolStatus"
  blank := ⟨0, 0, 0.0⟩
  fields := [
    ⟨"active", [], .defaulted, Codec.word32, PoolStatus.active,
      fun v r => { r with active := v }⟩,
    ⟨"max", [], .defaulted, Codec.word32, PoolStatus.max, fun v r => { r with max := v }⟩,
    ⟨"memory_mb", [], .defaulted, Codec.double, PoolStatus.memory,
      fun v r => { r with memory := v }⟩]

structure RuntimeStatus where
  version : String
  uptime : Float
  activeContexts : UInt32
  cachedMaps : UInt32
  memory : Float
  pool : Option PoolStatus
  deriving Inhabited

namespace RuntimeStatus

/-- Three fields have an older name, under which they are read as well. -/
def shape : Shape RuntimeStatus where
  title := "RuntimeStatus"
  blank := ⟨"unknown", 0.0, 0, 0, 0.0, none⟩
  fields := [
    ⟨"version", [], .defaulted, Codec.text, version, fun v r => { r with version := v }⟩,
    ⟨"uptime_seconds", ["uptime_s"], .defaulted, Codec.double, uptime,
      fun v r => { r with uptime := v }⟩,
    ⟨"active_contexts", [], .defaulted, Codec.word32, activeContexts,
      fun v r => { r with activeContexts := v }⟩,
    ⟨"cached_maps", ["maps_cached"], .defaulted, Codec.word32, cachedMaps,
      fun v r => { r with cachedMaps := v }⟩,
    ⟨"memory_mb", ["cache_mb"], .defaulted, Codec.double, memory,
      fun v r => { r with memory := v }⟩,
    ⟨"pool", [], .defaulted, Codec.optional PoolStatus.shape.codec, pool,
      fun v r => { r with pool := v }⟩]

def display (s : RuntimeStatus) : String :=
  s!"RuntimeStatus(version={Text.quoted s.version}, uptime={Decimal.fixed 1 s.uptime}s, " ++
    s!"maps={s.cachedMaps})"

end RuntimeStatus

structure HandshakeResult where
  serverVersion : String
  protocolVersion : UInt16
  compatible : Bool
  deriving DecidableEq, Repr, Inhabited

def HandshakeResult.shape : Shape HandshakeResult where
  title := "HandshakeResult"
  blank := ⟨"", 0, false⟩
  fields := [
    ⟨"server_version", [], .defaulted, Codec.text, HandshakeResult.serverVersion,
      fun v r => { r with serverVersion := v }⟩,
    ⟨"protocol_version", [], .defaulted, Codec.word16, HandshakeResult.protocolVersion,
      fun v r => { r with protocolVersion := v }⟩,
    ⟨"compatible", [], .defaulted, Codec.bool, HandshakeResult.compatible,
      fun v r => { r with compatible := v }⟩]

end SiteAtlas
