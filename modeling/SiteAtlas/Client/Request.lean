import SiteAtlas.Client.Dialogue
import SiteAtlas.Page.Change
import SiteAtlas.Page.NodeMatch
import SiteAtlas.Page.PageResult
import SiteAtlas.Page.Path
import SiteAtlas.Service.Status
import SiteAtlas.Site.MapInfo
import SiteAtlas.Site.Params

/-!
Single requests and how their answers are read. Each method has one kind of error for failures that
the service reports, and one code for those that it leaves without a code.
-/
namespace SiteAtlas

namespace Method

/-- The kind of error that a reported failure of a method becomes. -/
def errorKind : Method → ErrorKind
  | .handshake | .status => .connection
  | .map => .map
  | .query | .perceive => .notFound
  | .pathfind => .path
  | .refresh | .act | .watch => .action
  | .auth => .auth

/-- The code of a reported failure that has none. -/
def defaultCode : Method → String
  | .handshake | .status => "E_CONNECTION"
  | .map => "E_MAP_FAILED"
  | .query | .perceive => "E_NOT_FOUND"
  | .pathfind => "E_PATH_FAILED"
  | .refresh | .act | .watch => "E_ACT_FAILED"
  | .auth => "E_AUTH_FAILED"

end Method

/-- The result in a response; a reported failure becomes an error of the method's kind. -/
def Response.result? (method : Method) : Response → Except ClientError Json
  | .result value => .ok value
  | .error report => .error (.ofService method.errorKind report method.defaultCode)

/-- A result without content counts as one without members. -/
def Json.orEmpty : Json → Json
  | .null => .object []
  | j => j

def Shape.readResult {ρ : Type} (s : Shape ρ) (method : Method) (result : Json) :
    Except ClientError ρ :=
  (s.decode result.orEmpty).mapError fun fault => .malformed (.result method fault)

namespace Dialogue

variable {ρ : Type}

def request (method : Method) (params : Json) : Dialogue Json :=
  .ask (method, params) fun response => .ofExcept (response.result? method)

def fetch (method : Method) (params : Json) (shape : Shape ρ) : Dialogue ρ :=
  (request method params).bind fun result => .ofExcept (shape.readResult method result)

end Dialogue

end SiteAtlas
