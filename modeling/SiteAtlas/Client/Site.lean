import SiteAtlas.Client.Request

/-!
Mapped sites and what can be done on them. A site remembers its domain and what the service said
when it was mapped; each operation is one request, and only the domain goes into it.
-/
namespace SiteAtlas

structure Site where
  domain : Domain
  info : MapInfo
  deriving DecidableEq, Repr, Inhabited

namespace Site

def display (s : Site) : String :=
  s!"SiteMap(domain={Text.quoted s.domain.text}, nodes={s.info.nodeCount}, " ++
    s!"edges={s.info.edgeCount})"

def debug (s : Site) : String :=
  Text.openRecord "SiteMap" [
    ("domain", s.domain.debug),
    ("node_count", toString s.info.nodeCount),
    ("edge_count", toString s.info.edgeCount),
    ("map_path", Text.optional Text.quoted s.info.mapPath),
    ("cached", toString s.info.cached)]

/-- Ask for nodes. They come in the service's order. -/
def find (params : Json) : Dialogue (List NodeMatch) :=
  (Dialogue.fetch .query params QueryResult.shape).bind fun answer => .done answer.found

def filter (s : Site) (q : Query) : Dialogue (List NodeMatch) :=
  (Dialogue.accept (Params.query s.domain q)).bind find

def nearest (s : Site) (goal : List Float) (k : UInt32) : Dialogue (List NodeMatch) :=
  (Dialogue.accept (Params.nearest s.domain goal k)).bind find

/-- The code by which the service says that there is no path. -/
def noPath : String := "E_NO_PATH"

/-- The best route between two nodes, if there is one. -/
def pathfind (s : Site) (source target : UInt32) (options : PathOptions) :
    Dialogue (Option Path) :=
  .ask (.pathfind, Params.pathfind s.domain source target options) fun response =>
    match response with
    | .error report =>
      if report.code = noPath then .done none
      else .fail (.ofService Method.pathfind.errorKind report Method.pathfind.defaultCode)
    | .result value => .ofExcept ((Path.shape.readResult .pathfind value).map some)

def refresh (s : Site) (selector : RefreshSelector) : Dialogue RefreshResult :=
  (Dialogue.accept (Params.refresh s.domain selector)).bind fun params =>
    .fetch .refresh params RefreshResult.shape

/-- Act on a node. An action without success is no error. -/
def act (s : Site) (node : UInt32) (opcode : Opcode) (params : Option Json)
    (session : Option Session) : Dialogue ActResult :=
  .fetch .act (Params.act s.domain node opcode params session) ActResult.shape

/-- Register for changes. The service accepts with any result and sends none over this channel. -/
def watch (s : Site) (spec : WatchSpec) : Dialogue (List WatchDelta) :=
  (Dialogue.accept (Params.watch s.domain spec)).bind fun params =>
    (Dialogue.request .watch params).bind fun _ => .done []

end Site

end SiteAtlas
