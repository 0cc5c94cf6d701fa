import SiteAtlas.Codec.Shape
import SiteAtlas.Text.Record

/-!
Authenticated sessions. The client passes a session on and never looks into it; diagnostic texts do
not show its token.
-/
namespace SiteAtlas

structure Session where
  id : String
  domain : String
  authType : String
  expires : Option Time.Instant
  deriving DecidableEq, Repr, Inhabited

namespace Session

def shape : Shape Session where
  title := "Session"
  blank := ⟨"", "", "", none⟩
  fields := [
    ⟨"session_id", [], .required, Codec.text, id, fun v r => { r with id := v }⟩,
    ⟨"domain", [], .required, Codec.text, domain, fun v r => { r with domain := v }⟩,
    ⟨"auth_type", [], .required, Codec.text, authType, fun v r => { r with authType := v }⟩,
    ⟨"expires_at", [], .defaulted, Codec.optional Codec.instant, expires,
      fun v r => { r with expires := v }⟩]

/-- The text for logs, without the token. -/
def debug (s : Session) : String :=
  Text.record "Session" [
    ("session_id", Text.redacted),
    ("domain", Text.quoted s.domain),
    ("auth_type", Text.quoted s.authType),
    ("expires_at", Text.optional Time.Instant.shown s.expires)]

end Session

/-- A session as the service sends it; all but the token may be left out. -/
structure AuthResult where
  id : Option String
  domain : Option String
  authType : Option String
  expires : Option Time.Instant
  deriving DecidableEq, Repr, Inhabited

namespace AuthResult

def shape : Shape AuthResult where
  title := "AuthResult"
  blank := ⟨none, none, none, none⟩
  fields := [
    ⟨"session_id", [], .defaulted, Codec.optional Codec.text, id, fun v r => { r with id := v }⟩,
    ⟨"domain", [], .defaulted, Codec.optional Codec.text, domain,
      fun v r => { r with domain := v }⟩,
    ⟨"auth_type", [], .defaulted, Codec.optional Codec.text, authType,
      fun v r => { r with authType := v }⟩,
    ⟨"expires_at", [], .defaulted, Codec.optional Codec.instant, expires,
      fun v r => { r with expires := v }⟩]

/-- The session of an answer, unless it has no token. What the service left out is filled in. -/
def session? (a : AuthResult) (domain authType : String) : Option Session :=
  match a.id with
  | none => none
  | some id =>
    if id.isEmpty then none
    else some ⟨id, a.domain.getD domain, a.authType.getD authType, a.expires⟩

end AuthResult

end SiteAtlas
