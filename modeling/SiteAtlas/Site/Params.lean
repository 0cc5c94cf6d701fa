import SiteAtlas.Page.Opcode
import SiteAtlas.Service.Credentials
import SiteAtlas.Service.Session
import SiteAtlas.Site.Options
import SiteAtlas.Site.Query

/-!
The parameters of requests. All checks of arguments happen here, before anything is sent. An
optional argument that is not given has no member, and no number is replaced.
-/
namespace SiteAtlas.Params

def clientVersion : String := "0.1.0"

def protocolVersion : Nat := 1

def words (ns : List UInt32) : Json := .list (ns.map fun n => .nat n.toNat)

def sessionMember (session : Option Session) : List (String × Json) :=
  optionalMember "session_id" (fun s => .text s.id) session

def map (domain : Domain) (options : MapOptions) (session : Option Session) : Json :=
  .ofMembers ([
    ("domain", domain.json),
    ("max_nodes", .nat options.maxNodes.toNat),
    ("max_render", .nat options.maxRender.toNat),
    ("max_time_ms", .nat options.maxTime.toNat),
    ("respect_robots", .bool options.respectRobots)] ++ sessionMember session)

def query (domain : Domain) (q : Query) : Except Rejection Json := do
  return .ofMembers (← q.members domain)

/-- A query for the nodes closest to a goal, which must have a finite entry in each dimension. -/
def nearest (domain : Domain) (goal : List Float) (k : UInt32) : Except Rejection Json := do
  if goal.length ≠ featureDimensions then throw (.goalLength goal.length)
  goal.forM (checkFinite .goalEntry)
  let members ← (Query.default.withLimit k).members domain
  return .ofMembers (members ++ [
    ("mode", .text "nearest"),
    ("goal_vector", .list (goal.map .float))])

def pathfind (domain : Domain) (source target : UInt32) (options : PathOptions) : Json :=
  .ofMembers [
    ("domain", domain.json),
    ("from", .nat source.toNat),
    ("to", .nat target.toNat),
    ("avoid_flags", .list (options.avoid.map .text)),
    ("minimize", .text options.minimize.name)]

def refresh (domain : Domain) (selector : RefreshSelector) : Except Rejection Json := do
  if let some threshold := selector.staleThreshold then checkFinite .staleThreshold threshold
  return .ofMembers ([("domain", domain.json)] ++
    optionalMember "nodes" words selector.nodes ++
    optionalMember "cluster" (fun n => .nat n.toNat) selector.cluster ++
    optionalMember "stale_threshold" .float selector.staleThreshold)

def actMembers (domain : Domain) (node : UInt32) (opcode : Opcode) (params : Option Json)
    (session : Option Session) : List (String × Json) :=
  [("domain", domain.json), ("node", .nat node.toNat), ("opcode", Opcode.codec.encode opcode)] ++
    optionalMember "params" id params ++ sessionMember session

def act (domain : Domain) (node : UInt32) (opcode : Opcode) (params : Option Json)
    (session : Option Session) : Json :=
  .ofMembers (actMembers domain node opcode params session)

/-- Act on the page at an address; its domain is taken from the address. -/
def actUrl (url : String) (opcode : Opcode) (params : Option Json) (session : Option Session) :
    Except Rejection Json := do
  let domain ← Domain.parse url
  return .ofMembers (actMembers domain 0 opcode params session ++ [("url", .text url)])

def perceive (url : String) (includeContent : Bool) : Except Rejection Json :=
  if (Text.trim url.toList).isEmpty then .error .emptyUrl
  else .ok (.ofMembers [("url", .text url), ("include_content", .bool includeContent)])

def watch (domain : Domain) (spec : WatchSpec) : Except Rejection Json := do
  if let some features := spec.features then features.forM checkDimension
  return .ofMembers ([("domain", domain.json), ("interval_ms", .nat spec.interval.toNat)] ++
    optionalMember "nodes" words spec.nodes ++
    optionalMember "cluster" (fun n => .nat n.toNat) spec.cluster ++
    optionalMember "features" (fun fs => .list (fs.map fun d => .nat d.toNat)) spec.features)

def credentialMembers : Credentials → List (String × Json)
  | .password username password => [("username", .text username), ("password", .text password)]
  | .oauth provider => [("provider", .text provider)]
  | .apiKey key header => [("key", .text key), ("header_name", .text header)]

def auth (domain : Domain) (credentials : Credentials) : Json :=
  .ofMembers ([("domain", domain.json), ("auth_type", .text credentials.authType)] ++
    credentialMembers credentials)

def handshake : Json :=
  .ofMembers [("client_version", .text clientVersion), ("protocol_version", .nat protocolVersion)]

def empty : Json := .object []

end SiteAtlas.Params
