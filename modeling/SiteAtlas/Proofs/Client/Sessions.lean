import SiteAtlas.Proofs.Client.Answers
import SiteAtlas.Proofs.Client.Usage

/-!
# Sessions

A session comes from the reply to a log-in, with what the reply leaves out filled in. Later requests
take the token from it and nothing else: a request in a session is the same request without one, and
a member for the token.
-/
namespace SiteAtlas

/-- What an object has at a key, read with a codec. Nothing is what it lacks or what is not read. -/
def Json.readAt? {α : Type} (c : Codec α) (key : String) (j : Json) : Option α :=
  (j.member? key).bind fun value => (c.decode value).toOption

/-- An optional field of a record holds what the object has at its name. -/
theorem Field.eq_readAt? {ρ α : Type} {name : String} {c : Codec α} {get : ρ → Option α}
    {put : Option α → ρ → ρ} (hnull : ∀ a, c.decode .null ≠ .ok a)
    {members : List (String × Json)} {new : Option α} :
    let f : Field ρ := ⟨name, [], .defaulted, Codec.optional c, get, put⟩
    f.Gives (f.valuesIn members) False none new → new = (Json.object members).readAt? c name := by
  intro f h
  have hmember := h.of_member rfl
  rw [Json.readAt?]
  cases hj : (Json.object members).member? name with
  | none =>
    have hlacks : (Json.object members).member? f.name = none := hj
    rw [hlacks] at hmember
    exact hmember
  | some j =>
    have hhas : (Json.object members).member? f.name = some j := hj
    rw [hhas] at hmember
    exact (Codec.toOption_of_optional hnull hmember).symm

theorem AuthResult.decode_object {members : List (String × Json)} {answer : AuthResult}
    (h : shape.decode (.object members) = .ok answer) :
    let j := Json.object members
    answer.id = j.readAt? Codec.text "session_id" ∧
      answer.domain = j.readAt? Codec.text "domain" ∧
      answer.authType = j.readAt? Codec.text "auth_type" ∧
      answer.expires = j.readAt? Codec.instant "expires_at" := by
  have hregular : shape.Regular := ⟨lawful, by decide⟩
  have hgives := hregular.decode_object_eq_ok.1 h
  simp only [shape, List.forall_mem_cons, List.not_mem_nil, false_imp_iff, implies_true,
    and_true] at hgives
  obtain ⟨hid, hdomain, htype, hexpires⟩ := hgives
  have htext : ∀ s, Codec.text.decode .null ≠ .ok s := by
    rintro s ⟨⟩
  have hinstant : ∀ t, Codec.instant.decode .null ≠ .ok t := by
    rintro t ⟨⟩
  exact ⟨Field.eq_readAt? htext hid, Field.eq_readAt? htext hdomain, Field.eq_readAt? htext htype,
    Field.eq_readAt? hinstant hexpires⟩

namespace Client

variable {σ : Type}

theorem Operation.readSession_eq_ok {domain authType : String} {answer : AuthResult}
    {session : Session} : readSession domain authType answer = .ok session ↔
      ∃ id, answer.id = some id ∧ id ≠ "" ∧
        session = ⟨id, answer.domain.getD domain, answer.authType.getD authType,
          answer.expires⟩ := by
  rw [readSession]
  cases answer.id with
  | none => simp
  | some id =>
    by_cases h : id = ""
    · simp [h]
    · simp [h, eq_comm]

/-- A log-in gives a session if the address is accepted and the reply has a result with a token that
is not blank. -/
theorem login_eq_ok (exchange : Exchange σ) (s : σ) (address : String) (credentials : Credentials)
    (session : Session) :
    ((login address credentials).run exchange s).outcome = .ok session ↔
      ∃ domain value answer id, Domain.parse address = .ok domain ∧
        (exchange (.auth, Params.auth domain credentials) s).1 = .ok (.result value) ∧
        AuthResult.shape.decode value.orEmpty = .ok answer ∧ answer.id = some id ∧ id ≠ "" ∧
        session = ⟨id, answer.domain.getD domain.text,
          answer.authType.getD credentials.authType, answer.expires⟩ := by
  cases hparse : Domain.parse address with
  | error why =>
    have hrun : (login address credentials).run exchange s = ⟨.error (.rejected why), [], s⟩ := by
      rw [login, hparse]
      rfl
    simp [hrun]
  | ok domain =>
    have hfollows := Operation.follows (.login address credentials)
    rw [Operation.inquiry, hparse] at hfollows
    obtain ⟨-, -, hok⟩ := hfollows.run_eq_ok (fun _ => rfl) exchange s
    refine (hok session).trans ⟨?_, ?_⟩
    · rintro ⟨value, hreply, hread⟩
      obtain ⟨answer, hanswer, hsession⟩ := bind_eq_ok.1 hread
      obtain ⟨id, hid, hne, rfl⟩ := Operation.readSession_eq_ok.1 hsession
      exact ⟨domain, value, answer, id, rfl, hreply, Shape.ofResult_eq_ok.1 hanswer, hid, hne, rfl⟩
    · rintro ⟨_, value, answer, id, hdomain, hreply, hanswer, hid, hne, hsession⟩
      cases hdomain
      refine ⟨value, hreply, bind_eq_ok.2 ⟨answer, Shape.ofResult_eq_ok.2 hanswer, ?_⟩⟩
      exact Operation.readSession_eq_ok.2 ⟨id, hid, hne, hsession⟩

end Client

theorem Params.lacks_action (domain : Domain) (node : UInt32) (opcode : Opcode)
    (params : Option Json) :
    Lacks "session_id" ([("domain", domain.json), ("node", .nat node.toNat),
      ("opcode", Opcode.codec.encode opcode)] ++ optionalMember "params" id params) := by
  simp [lacks_optionalMember]

/-- One request, made with or without a session. Only the token of the session is in it. -/
structure Session.Carried {α : Type} (make : Option Session → Dialogue α) (method : Method)
    (params : Option Session → Json) : Prop where
  /-- it is sent once, and nothing else is -/
  sends : ∀ (σ : Type) (exchange : Exchange σ) (s : σ) (session : Option Session),
    ((make session).run exchange s).calls = [(method, params session)]
  bare : (params none).member? "session_id" = none
  token : ∀ session : Session,
    (params (some session)).member? "session_id" = some (.text session.id)
  rest : ∀ session : Session,
    params (some session) = Json.withMember "session_id" (.text session.id) (params none)
  alike : ∀ session other : Session, session.id = other.id →
    params (some session) = params (some other)

/-- A request carries a session if the token goes between members none of which is one. -/
theorem Session.carried_of_members {α : Type} {make : Option Session → Dialogue α}
    {method : Method} {params : Option Session → Json} {front rest : List (String × Json)}
    (hparams : ∀ session,
      params session = .ofMembers (front ++ Params.sessionMember session ++ rest))
    (hfront : Lacks "session_id" front) (hrest : Lacks "session_id" rest)
    (sends : ∀ (σ : Type) (exchange : Exchange σ) (s : σ) (session : Option Session),
      ((make session).run exchange s).calls = [(method, params session)]) :
    Session.Carried make method params := by
  have hbare : params none = .ofMembers (front ++ rest) := by
    simp [hparams, Params.sessionMember, optionalMember]
  have hmarked (session : Session) :
      params (some session) = Json.withMember "session_id" (.text session.id) (params none) := by
    rw [hbare, ← Json.ofMembers_insert front rest (.text session.id) hrest]
    simp [hparams, Params.sessionMember, optionalMember]
  constructor
  · exact sends
  · rw [hbare]
    exact Json.member?_ofMembers_eq_none (lacks_append.2 ⟨hfront, hrest⟩)
  · intro session
    rw [hmarked, hbare]
    exact entryAt?_putEntry_self _ _ _
  · exact hmarked
  · intro session other hid
    rw [hmarked, hmarked, hid]

theorem Session.carried_map {address : String} {domain : Domain}
    (parsed : Domain.parse address = .ok domain) (options : MapOptions) :
    Session.Carried (Client.map address options) .map (Params.map domain options) := by
  have hfront : Lacks "session_id" [
      ("domain", domain.json),
      ("max_nodes", .nat options.maxNodes.toNat),
      ("max_render", .nat options.maxRender.toNat),
      ("max_time_ms", .nat options.maxTime.toNat),
      ("respect_robots", .bool options.respectRobots)] := by
    simp
  apply Session.carried_of_members _ hfront (lacks_nil _)
  · intro σ exchange s session
    have hcalls := (Client.Operation.follows (.map address options session)).calls exchange s
    rw [Client.Operation.inquiry, parsed] at hcalls
    exact hcalls
  · intro session
    rw [List.append_nil]
    rfl

theorem Session.carried_act (site : Site) (node : UInt32) (opcode : Opcode) (params : Option Json) :
    Session.Carried (site.act node opcode params) .act
      (Params.act site.domain node opcode params) := by
  apply Session.carried_of_members _ (Params.lacks_action site.domain node opcode params)
    (lacks_nil _)
  · intro σ exchange s session
    exact (Site.Operation.follows site (.act node opcode params session)).calls exchange s
  · intro session
    rw [List.append_nil]
    rfl

theorem Session.carried_actUrl {url : String} {domain : Domain}
    (parsed : Domain.parse url = .ok domain) (opcode : Opcode) (params : Option Json) :
    ∃ sent : Option Session → Json,
      (∀ session, Params.actUrl url opcode params session = .ok (sent session)) ∧
        Session.Carried (Client.act url opcode params) .act sent := by
  have hparams (session : Option Session) :
      Params.actUrl url opcode params session = .ok (.ofMembers
        (Params.actMembers domain 0 opcode params session ++ [("url", .text url)])) := by
    rw [Params.actUrl, parsed]
    rfl
  refine ⟨_, hparams, ?_⟩
  apply Session.carried_of_members (fun _ => rfl) (Params.lacks_action domain 0 opcode params)
  · simp
  · intro σ exchange s session
    have hcalls := (Client.Operation.follows (.act url opcode params session)).calls exchange s
    rw [Client.Operation.inquiry, hparams] at hcalls
    exact hcalls

/-- Sessions flow unchanged from a log-in to later requests. A log-in gives a session only for a
token that is not blank, with the domain and the kind that the reply states or else those of the
log-in, and the expiry that it states. To map or to act sends one request, in a session as well as
without one, and the request in a session is the other one with the token: nothing else of the
session has a part in it. An address that names no domain is refused before anything is sent. -/
theorem sessions_flow {σ : Type} (exchange : Exchange σ) (s : σ) :
    (∀ address credentials session,
      ((Client.login address credentials).run exchange s).outcome = .ok session ↔
        ∃ domain value answer id, Domain.parse address = .ok domain ∧
          (exchange (.auth, Params.auth domain credentials) s).1 = .ok (.result value) ∧
          AuthResult.shape.decode value.orEmpty = .ok answer ∧ answer.id = some id ∧ id ≠ "" ∧
          session = ⟨id, answer.domain.getD domain.text,
            answer.authType.getD credentials.authType, answer.expires⟩) ∧
    (∀ members answer, AuthResult.shape.decode (.object members) = .ok answer →
      let j := Json.object members
      answer.id = j.readAt? Codec.text "session_id" ∧
        answer.domain = j.readAt? Codec.text "domain" ∧
        answer.authType = j.readAt? Codec.text "auth_type" ∧
        answer.expires = j.readAt? Codec.instant "expires_at") ∧
    (∀ (site : Site) node opcode params,
      Session.Carried (site.act node opcode params) .act
        (Params.act site.domain node opcode params)) ∧
    (∀ address domain, Domain.parse address = .ok domain →
      (∀ options,
        Session.Carried (Client.map address options) .map (Params.map domain options)) ∧
      ∀ opcode params, ∃ sent : Option Session → Json,
        (∀ session, Params.actUrl address opcode params session = .ok (sent session)) ∧
          Session.Carried (Client.act address opcode params) .act sent) ∧
    ∀ address why, Domain.parse address = .error why → ∀ session : Option Session,
      (∀ options, (Client.map address options session).run exchange s =
        ⟨.error (.rejected why), [], s⟩) ∧
      ∀ opcode params, (Client.act address opcode params session).run exchange s =
        ⟨.error (.rejected why), [], s⟩ := by
  refine ⟨Client.login_eq_ok exchange s, fun members answer h => AuthResult.decode_object h,
    Session.carried_act, ?_, ?_⟩
  · intro address domain parsed
    exact ⟨Session.carried_map parsed, Session.carried_actUrl parsed⟩
  · intro address why refused session
    constructor
    · intro options
      rw [Client.map, refused]
      rfl
    · intro opcode params
      rw [Client.act, Params.actUrl, refused]
      rfl

/-- A reply without a domain and with a blank kind; its token is in the one request to map another
site, which is the same for a session of that site. -/
theorem sessions_flow_mapped :
    let members : List (String × Json) :=
      [("auth_type", .text ""), ("domain", .null), ("session_id", .text "s-1")]
    let exchange : Exchange Unit := fun _ s => (.ok (.result (.object members)), s)
    let session : Session := ⟨"s-1", "a.com", "", none⟩
    let other : Session := ⟨"s-1", "b.com", "password", none⟩
    let params : Option Session → Json := Params.map ⟨"b.com"⟩ {}
    ((Client.login "https://a.com/x" (.oauth "google")).run exchange ()).outcome = .ok session ∧
      ((Client.map "b.com" {} none).run exchange ()).calls = [(.map, params none)] ∧
      ((Client.map "b.com" {} (some session)).run exchange ()).calls =
        [(.map, params (some session))] ∧
      (params none).member? "session_id" = none ∧
      (params (some session)).member? "session_id" = some (.text "s-1") ∧
      params (some session) = params (some other) := by
  intro members exchange session other params
  obtain ⟨hlogin, -, -, hparsed, -⟩ := sessions_flow exchange ()
  have hmap : Session.Carried (Client.map "b.com" {}) .map params :=
    (hparsed "b.com" ⟨"b.com"⟩ rfl).1 {}
  refine ⟨(hlogin "https://a.com/x" (.oauth "google") session).2 ?_,
    hmap.sends Unit exchange () none, hmap.sends Unit exchange () (some session), hmap.bare,
    hmap.token session, hmap.alike session other rfl⟩
  exact ⟨⟨"a.com"⟩, .object members, ⟨some "s-1", none, some "", none⟩, "s-1", rfl, rfl, rfl, rfl,
    by decide, rfl⟩

end SiteAtlas
