import SiteAtlas.Client.Site
import SiteAtlas.Site.Compare

/-!
What the service is asked for directly: mapping and comparing sites, looking at single pages, its
status, versions, and logging in.
-/
namespace SiteAtlas.Client

def debug : String := Text.openRecord "Cartograph" []

def map (address : String) (options : MapOptions) (session : Option Session) : Dialogue Site :=
  (Dialogue.accept (Domain.parse address)).bind fun domain =>
    (Dialogue.fetch .map (Params.map domain options session) MapInfo.shape).bind fun info =>
      .done ⟨domain, info⟩

def mapMany (addresses : List String) (options : MapOptions) : Dialogue (List Site) :=
  addresses.mapM fun address => map address options none

/-- The page types among the first nodes of a site. -/
def listing (limit : UInt32) (site : Site) : Dialogue Listing :=
  (site.filter (Query.default.withLimit limit)).bind fun nodes =>
    .done (site.domain.text, .ofList (nodes.map NodeMatch.pageType))

def compare (addresses : List String) (limit : UInt32) : Dialogue CompareResult := do
  let sites ← mapMany addresses {}
  let listings ← sites.mapM (listing limit)
  return Listing.compare listings

def perceive (url : String) (includeContent : Bool) : Dialogue PageResult :=
  (Dialogue.accept (Params.perceive url includeContent)).bind fun params =>
    (Dialogue.fetch .perceive params PerceiveResult.shape).bind fun page =>
      .done (.ofPerceived url page)

def perceiveMany (urls : List String) (includeContent : Bool) : Dialogue (List PageResult) :=
  urls.mapM fun url => perceive url includeContent

def status : Dialogue RuntimeStatus := .fetch .status Params.empty RuntimeStatus.shape

def handshake : Dialogue HandshakeResult :=
  .fetch .handshake Params.handshake HandshakeResult.shape

/-- Log in. The service must give the session a token. -/
def login (address : String) (credentials : Credentials) : Dialogue Session :=
  (Dialogue.accept (Domain.parse address)).bind fun domain =>
    (Dialogue.fetch .auth (Params.auth domain credentials) AuthResult.shape).bind fun answer =>
      match answer.session? domain.text credentials.authType with
      | some session => .done session
      | none => .fail (.malformed .noSessionId)

def act (url : String) (opcode : Opcode) (params : Option Json) (session : Option Session) :
    Dialogue ActResult :=
  (Dialogue.accept (Params.actUrl url opcode params session)).bind fun params =>
    .fetch .act params ActResult.shape

end SiteAtlas.Client
