import SiteAtlas.Proofs.Client.Outcome
import SiteAtlas.Proofs.Json.Members

/-!
# Secrets

A password or a key goes into one member of the request that logs in, and nowhere else: what a
log-in comes to is known from the domain, the kind of the credentials and the reply, and the texts
for logs show neither credentials nor tokens.
-/
namespace SiteAtlas

/-- Credentials of one kind that differ at most in the secret that is sent under this name. -/
inductive Credentials.SameButFor : String → Credentials → Credentials → Prop where
  | password (username password other : String) :
    SameButFor "password" (.password username password) (.password username other)
  | key (key other header : String) : SameButFor "key" (.apiKey key header) (.apiKey other header)

namespace Credentials.SameButFor

variable {name : String} {a b : Credentials}

theorem authType_eq (h : SameButFor name a b) : a.authType = b.authType := by
  cases h <;> rfl

theorem debug_eq (h : SameButFor name a b) : a.debug = b.debug := by
  cases h <;> rfl

/-- The parameters differ in the member that holds the secret. -/
theorem auth_eq (h : SameButFor name a b) (domain : Domain) :
    ∃ secret,
      Params.auth domain b = Json.withMember name (.text secret) (Params.auth domain a) := by
  cases h with
  | password username password other =>
    refine ⟨other, ?_⟩
    exact Json.ofMembers_replace
      [("domain", domain.json), ("auth_type", .text "password"), ("username", .text username)] []
      (.text password) (.text other) (by simp)
  | key key other header =>
    refine ⟨other, ?_⟩
    exact Json.ofMembers_replace [("domain", domain.json), ("auth_type", .text "api_key")]
      [("header_name", .text header)] (.text key) (.text other) (by simp)

end Credentials.SameButFor

namespace Dialogue

variable {σ α β ρ : Type}

@[simp] theorem ofExcept_bind_ofExcept (answer : Except ClientError α)
    (f : α → Except ClientError β) :
    ((ofExcept answer).bind fun a => ofExcept (f a)) = ofExcept (answer.bind f) := by
  cases answer <;> rfl

/-- A request whose result is read in a shape and made an answer reads its response. -/
theorem fetch_bind_eq (method : Method) (params : Json) (shape : Shape ρ) {next : ρ → Dialogue α}
    {make : ρ → Except ClientError α} (h : ∀ r, next r = ofExcept (make r)) :
    (fetch method params shape).bind next = ask (method, params) fun response =>
      ofExcept (((response.result? method).bind (shape.readResult method)).bind make) := by
  obtain rfl : next = fun r => ofExcept (make r) := funext h
  simp only [fetch, request, bind, ofExcept_bind_ofExcept]

/-- A single request whose response is read. -/
theorem run_ask_ofExcept (exchange : Exchange σ) (call : Call)
    (read : Response → Except ClientError α) (s : σ) :
    (ask call fun response => ofExcept (read response)).run exchange s =
      ⟨(exchange call s).1.bind read, [call], (exchange call s).2⟩ := by
  rw [run]
  rcases exchange call s with ⟨reply, t⟩
  cases reply with
  | error e => rfl
  | ok response =>
    simp only [run_ofExcept]
    rfl

end Dialogue

namespace Client

variable {σ : Type} {address : String}

/-- The session that a response stands for. Of the credentials only their kind is asked for. -/
def sessionOf (domain : Domain) (authType : String) (response : Response) :
    Except ClientError Session :=
  ((response.result? .auth).bind (AuthResult.shape.readResult .auth)).bind fun answer =>
    (Operation.readSession domain.text authType answer).mapError .malformed

/-- A log-in makes one request, and the credentials themselves go into nothing but that request. -/
theorem run_login {domain : Domain} (h : Domain.parse address = .ok domain)
    (credentials : Credentials) (exchange : Exchange σ) (s : σ) :
    let call := (.auth, Params.auth domain credentials)
    (login address credentials).run exchange s =
      ⟨(exchange call s).1.bind (sessionOf domain credentials.authType), [call],
        (exchange call s).2⟩ := by
  intro call
  have hlogin : login address credentials = .ask call fun response =>
      .ofExcept (sessionOf domain credentials.authType response) := by
    rw [login, h]
    exact Dialogue.fetch_bind_eq .auth _ AuthResult.shape fun answer =>
      Operation.session?_eq answer domain.text credentials.authType
  rw [hlogin, Dialogue.run_ask_ofExcept]

theorem run_login_refused {why : Rejection} (h : Domain.parse address = .error why)
    (credentials : Credentials) (exchange : Exchange σ) (s : σ) :
    (login address credentials).run exchange s = ⟨.error (.rejected why), [], s⟩ := by
  rw [login, h]
  rfl

end Client

/-- A password or a key reaches nothing but the request that logs in. Credentials that differ in it
alone make the same of the same reply, be it a session or an error, and no other request is made;
the parameters that are sent differ in one member. The texts for logs are the same, and so are those
of sessions that differ in the token. -/
theorem secrets_stay_in_request {name : String} {a b : Credentials} (h : a.SameButFor name b) :
    (∀ (address : String) {σ τ : Type} (exchange : Exchange σ) (s : σ) (other : Exchange τ) (t : τ),
      (∀ domain, Domain.parse address = .ok domain →
        (exchange (.auth, Params.auth domain a) s).1 =
          (other (.auth, Params.auth domain b) t).1) →
      let first := (Client.login address a).run exchange s
      let second := (Client.login address b).run other t
      first.outcome = second.outcome ∧
        ∀ call ∈ first.calls, ∃ domain,
          Domain.parse address = .ok domain ∧ call = (.auth, Params.auth domain a)) ∧
      (∀ domain, ∃ secret,
        Params.auth domain b = Json.withMember name (.text secret) (Params.auth domain a)) ∧
      a.debug = b.debug ∧
      ∀ (session : Session) (id : String), { session with id }.debug = session.debug := by
  refine ⟨?_, h.auth_eq, h.debug_eq, fun session id => rfl⟩
  intro address σ τ exchange s other t hreply first second
  cases hparse : Domain.parse address with
  | error why =>
    have hfirst : first = _ := Client.run_login_refused hparse a exchange s
    have hsecond : second = _ := Client.run_login_refused hparse b other t
    rw [hfirst, hsecond]
    exact ⟨rfl, fun call hcall => nomatch hcall⟩
  | ok domain =>
    have hfirst : first = _ := Client.run_login hparse a exchange s
    have hsecond : second = _ := Client.run_login hparse b other t
    rw [hfirst, hsecond, hreply domain hparse, h.authType_eq]
    exact ⟨rfl, fun call hcall => ⟨domain, rfl, List.mem_singleton.1 hcall⟩⟩

/-- The service takes one password and then another for the same user of a site. -/
theorem secrets_stay_in_request_twice :
    let a := Credentials.password "ann" "first"
    let b := Credentials.password "ann" "second"
    let replies : List (Except ClientError Response) :=
      [.ok (.result (.object [("session_id", .text "s-1")])), .ok (.error ⟨"E_BUSY", ""⟩)]
    let first := (Client.login "https://a.com/x" a).run Exchange.scripted replies
    let second := (Client.login "https://a.com/x" b).run Exchange.scripted (replies.take 1)
    a.SameButFor "password" b ∧ first.outcome = second.outcome ∧
      first.outcome = .ok ⟨"s-1", "a.com", "password", none⟩ ∧
      first.calls = [(.auth, Params.auth ⟨"a.com"⟩ a)] ∧
      (∃ secret, Params.auth ⟨"a.com"⟩ b =
        Json.withMember "password" (.text secret) (Params.auth ⟨"a.com"⟩ a)) ∧
      a.debug = b.debug := by
  intro a b replies first second
  have hsame : a.SameButFor "password" b := .password "ann" "first" "second"
  obtain ⟨hlogin, hparams, hdebug, -⟩ := secrets_stay_in_request hsame
  have houtcome := (hlogin "https://a.com/x" Exchange.scripted replies Exchange.scripted
    (replies.take 1) fun domain _ => rfl).1
  exact ⟨hsame, houtcome, rfl, rfl, hparams ⟨"a.com"⟩, hdebug⟩

end SiteAtlas
