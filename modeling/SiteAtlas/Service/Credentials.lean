import SiteAtlas.Text.Record

/-!
Material for logging in. Diagnostic texts show neither passwords nor keys.
-/
namespace SiteAtlas

inductive Credentials where
  | password (username password : String)
  | oauth (provider : String)
  | apiKey (key header : String)
  deriving DecidableEq, Repr

namespace Credentials

/-- The header in which a key is sent unless another one is named. -/
def defaultHeader : String := "X-Api-Key"

def default : Credentials := .oauth "google"

instance : Inhabited Credentials := ⟨default⟩

/-- Name the header for a key; other credentials have none and stay as they are. -/
def withHeader (header : String) : Credentials → Credentials
  | .apiKey key _ => .apiKey key header
  | other => other

def authType : Credentials → String
  | .password .. => "password"
  | .oauth _ => "oauth"
  | .apiKey .. => "api_key"

/-- The text for logs, without secrets. -/
def debug : Credentials → String
  | .password username _ =>
    Text.record "Password" [("username", Text.quoted username), ("password", Text.redacted)]
  | .oauth provider => Text.record "OAuth" [("provider", Text.quoted provider)]
  | .apiKey _ header =>
    Text.record "ApiKey" [("key", Text.redacted), ("header_name", Text.quoted header)]

end Credentials

end SiteAtlas
