import SiteAtlas.Client.Service

/-!
# The outcome of an operation

Twelve operations make one request each. What is particular to an operation is its inquiry: the
request, the kind and the default code of its failures, and the way it reads a result. How an
inquiry ends is the same for all of them.
-/
namespace SiteAtlas

/-- What an operation asks and how it takes the reply. -/
structure Inquiry (α : Type) where
  method : Method
  params : Json
  /-- the kind of a failure that the service reports -/
  kind : ErrorKind
  /-- the code of a failure that is reported without one -/
  defaultCode : String
  /-- the answer that a reported failure stands for, if it stands for one -/
  excuse : ServiceError → Option α := fun _ => none
  /-- the answer in a result -/
  read : Json → Except Malformed α

/-- Read a result in a shape; null is read like an object without members. -/
def Shape.ofResult {ρ : Type} (s : Shape ρ) (method : Method) (value : Json) :
    Except Malformed ρ :=
  (s.decode value.orEmpty).mapError (.result method)

namespace Inquiry

variable {α : Type}

def call (q : Inquiry α) : Call := (q.method, q.params)

/-- How an inquiry may end, by the reply that it got. -/
inductive Settled (q : Inquiry α) :
    Except ClientError Response → Except ClientError α → Prop where
  /-- an error of the channel is passed on -/
  | broken (e : ClientError) : Settled q (.error e) (.error e)
  | excused {report : ServiceError} {a : α} (answer : q.excuse report = some a) :
    Settled q (.ok (.error report)) (.ok a)
  /-- any other report keeps its code and its message, unless they are blank -/
  | reported {report : ServiceError} {e : ClientError} (answer : q.excuse report = none)
    (kind : e.kind = q.kind)
    (code : e.code = if report.code = "" then q.defaultCode else report.code)
    (message : e.message =
      if report.message = "" then q.kind.word ++ " failed" else report.message) :
    Settled q (.ok (.error report)) (.error e)
  | answered {value : Json} {a : α} (answer : q.read value = .ok a) :
    Settled q (.ok (.result value)) (.ok a)
  | unreadable {value : Json} {why : Malformed} {e : ClientError}
    (answer : q.read value = .error why) (kind : e.kind = .protocol)
    (message : e.message = why.message) : Settled q (.ok (.result value)) (.error e)

end Inquiry

/-- A dialogue that asks nothing if its arguments are refused; otherwise it makes the request of its
inquiry, and no other one, and ends as the reply settles it. -/
def Dialogue.Follows {α : Type} (d : Dialogue α) (plan : Except Rejection (Inquiry α)) : Prop :=
  ∀ (σ : Type) (exchange : Exchange σ) (s : σ),
    match plan with
    | .error why =>
      d.run exchange s = ⟨.error (.rejected why), [], s⟩ ∧
        (ClientError.rejected why).kind = .invalidInput
    | .ok q => ∃ outcome,
      d.run exchange s = ⟨outcome, [q.call], (exchange q.call s).2⟩ ∧
        q.Settled (exchange q.call s).1 outcome

/-- The two ways in which a dialogue that follows a plan ends. -/
theorem Dialogue.Follows.ended {σ α : Type} {d : Dialogue α} {plan : Except Rejection (Inquiry α)}
    (h : d.Follows plan) (exchange : Exchange σ) (s : σ) :
    (∃ why, plan = .error why ∧ d.run exchange s = ⟨.error (.rejected why), [], s⟩) ∨
      ∃ q, plan = .ok q ∧ (d.run exchange s).calls = [q.call] ∧
        q.Settled (exchange q.call s).1 (d.run exchange s).outcome := by
  have hrun := h σ exchange s
  cases plan with
  | error why => exact .inl ⟨why, rfl, hrun.1⟩
  | ok q =>
    obtain ⟨outcome, hrun, hsettled⟩ := hrun
    rw [hrun]
    exact .inr ⟨q, rfl, rfl, hsettled⟩

namespace Client

inductive Operation where
  | map (address : String) (options : MapOptions) (session : Option Session)
  | perceive (url : String) (includeContent : Bool)
  | status
  | handshake
  | login (address : String) (credentials : Credentials)
  | act (url : String) (opcode : Opcode) (params : Option Json) (session : Option Session)

namespace Operation

def Answer : Operation → Type
  | .map .. => Site
  | .perceive .. => PageResult
  | .status => RuntimeStatus
  | .handshake => HandshakeResult
  | .login .. => Session
  | .act .. => ActResult

def dialogue : (op : Operation) → Dialogue op.Answer
  | .map address options session => Client.map address options session
  | .perceive url includeContent => Client.perceive url includeContent
  | .status => Client.status
  | .handshake => Client.handshake
  | .login address credentials => Client.login address credentials
  | .act url opcode params session => Client.act url opcode params session

/-- The session in an answer. It must have a token that is not blank; the service may leave out all
else. -/
def readSession (domain authType : String) (answer : AuthResult) : Except Malformed Session :=
  match answer.id with
  | none => .error .noSessionId
  | some id =>
    if id = "" then .error .noSessionId
    else .ok ⟨id, answer.domain.getD domain, answer.authType.getD authType, answer.expires⟩

def inquiry : (op : Operation) → Except Rejection (Inquiry op.Answer)
  | .map address options session =>
    (Domain.parse address).map fun domain =>
      { method := .map
        params := Params.map domain options session
        kind := .map
        defaultCode := "E_MAP_FAILED"
        read := fun value =>
          (MapInfo.shape.ofResult .map value).map fun info => (⟨domain, info⟩ : Site) }
  | .perceive url includeContent =>
    (Params.perceive url includeContent).map fun params =>
      { method := .perceive
        params
        kind := .notFound
        defaultCode := "E_NOT_FOUND"
        read := fun value =>
          (PerceiveResult.shape.ofResult .perceive value).map (PageResult.ofPerceived url) }
  | .status => .ok
    { method := .status
      params := .object []
      kind := .connection
      defaultCode := "E_CONNECTION"
      read := RuntimeStatus.shape.ofResult .status }
  | .handshake => .ok
    { method := .handshake
      params := Params.handshake
      kind := .connection
      defaultCode := "E_CONNECTION"
      read := HandshakeResult.shape.ofResult .handshake }
  | .login address credentials =>
    (Domain.parse address).map fun domain =>
      { method := .auth
        params := Params.auth domain credentials
        kind := .auth
        defaultCode := "E_AUTH_FAILED"
        read := fun value => (AuthResult.shape.ofResult .auth value).bind
          (readSession domain.text credentials.authType) }
  | .act url opcode params session =>
    (Params.actUrl url opcode params session).map fun params =>
      { method := .act
        params
        kind := .action
        defaultCode := "E_ACT_FAILED"
        read := ActResult.shape.ofResult .act }

end Operation

end Client

namespace Site

inductive Operation where
  | filter (query : Query)
  | nearest (goal : List Float) (k : UInt32)
  | pathfind (source target : UInt32) (options : PathOptions)
  | refresh (selector : RefreshSelector)
  | act (node : UInt32) (opcode : Opcode) (params : Option Json) (session : Option Session)
  | watch (spec : WatchSpec)

namespace Operation

def Answer : Operation → Type
  | .filter _ => List NodeMatch
  | .nearest .. => List NodeMatch
  | .pathfind .. => Option Path
  | .refresh _ => RefreshResult
  | .act .. => ActResult
  | .watch _ => List WatchDelta

def dialogue (site : Site) : (op : Operation) → Dialogue op.Answer
  | .filter query => site.filter query
  | .nearest goal k => site.nearest goal k
  | .pathfind source target options => site.pathfind source target options
  | .refresh selector => site.refresh selector
  | .act node opcode params session => site.act node opcode params session
  | .watch spec => site.watch spec

def nodeInquiry (params : Json) : Inquiry (List NodeMatch) where
  method := .query
  params := params
  kind := .notFound
  defaultCode := "E_NOT_FOUND"
  read value := (QueryResult.shape.ofResult .query value).map QueryResult.found

/-- A route is asked for. The report that there is none is an answer. -/
def pathInquiry (params : Json) : Inquiry (Option Path) where
  method := .pathfind
  params := params
  kind := .path
  defaultCode := "E_PATH_FAILED"
  excuse report := if report.code = "E_NO_PATH" then some none else none
  read value := (Path.shape.ofResult .pathfind value).map some

def inquiry (domain : Domain) : (op : Operation) → Except Rejection (Inquiry op.Answer)
  | .filter query => (Params.query domain query).map nodeInquiry
  | .nearest goal k => (Params.nearest domain goal k).map nodeInquiry
  | .pathfind source target options =>
    .ok (pathInquiry (Params.pathfind domain source target options))
  | .refresh selector =>
    (Params.refresh domain selector).map fun params =>
      { method := .refresh
        params
        kind := .action
        defaultCode := "E_ACT_FAILED"
        read := RefreshResult.shape.ofResult .refresh }
  | .act node opcode params session => .ok
    { method := .act
      params := Params.act domain node opcode params session
      kind := .action
      defaultCode := "E_ACT_FAILED"
      read := ActResult.shape.ofResult .act }
  | .watch spec =>
    (Params.watch domain spec).map fun params =>
      { method := .watch
        params
        kind := .action
        defaultCode := "E_ACT_FAILED"
        read := fun _ => .ok ([] : List WatchDelta) }

end Operation

end Site

namespace Dialogue

variable {α β γ : Type}

theorem bind_assoc (d : Dialogue α) (f : α → Dialogue β) (g : β → Dialogue γ) :
    (d.bind f).bind g = d.bind fun a => (f a).bind g := by
  induction d with
  | done a => rfl
  | fail e => rfl
  | ask call next ih =>
    simp only [bind, Dialogue.ask.injEq, true_and]
    funext response
    exact ih response

@[simp] theorem run_ofExcept {σ : Type} (exchange : Exchange σ) (answer : Except ClientError α)
    (s : σ) : (ofExcept answer).run exchange s = ⟨answer, [], s⟩ := by
  cases answer <;> rfl

/-- Refused arguments end a dialogue before it starts. -/
theorem follows_refused (f : β → Dialogue α) (why : Rejection) :
    ((accept (.error why)).bind f).Follows (.error why) :=
  fun _ _ _ => ⟨rfl, rfl⟩

/-- A dialogue that checks its arguments follows the plan that the checked arguments give. -/
theorem follows_accept (checked : Except Rejection β) {f : β → Dialogue α} {g : β → Inquiry α}
    (h : ∀ b, (f b).Follows (.ok (g b))) : ((accept checked).bind f).Follows (checked.map g) := by
  cases checked with
  | error why => exact follows_refused f why
  | ok b => exact h b

/-- One request follows an inquiry if every response settles it. -/
theorem follows_ask {q : Inquiry α} {next : Response → Dialogue α}
    (h : ∀ response, ∃ outcome, next response = ofExcept outcome ∧ q.Settled (.ok response) outcome) :
    (ask q.call next).Follows (.ok q) := by
  intro σ exchange s
  simp only [run]
  rcases exchange q.call s with ⟨reply, t⟩
  cases reply with
  | error e => exact ⟨.error e, rfl, .broken e⟩
  | ok response =>
    obtain ⟨outcome, hnext, hsettled⟩ := h response
    exact ⟨outcome, by simp [hnext], hsettled⟩

end Dialogue

theorem codeOr_eq (report : ServiceError) (default : String) :
    report.codeOr default = if report.code = "" then default else report.code := by
  simp [ServiceError.codeOr, String.isEmpty_iff]

/-- A report that is no answer becomes an error of the inquiry's kind. -/
theorem Inquiry.Settled.ofService {α : Type} {q : Inquiry α} {report : ServiceError}
    (excuse : q.excuse report = none) (input : q.kind ≠ .invalidInput)
    (protocol : q.kind ≠ .protocol) :
    q.Settled (.ok (.error report)) (.error (.ofService q.kind report q.defaultCode)) := by
  have hcode : (ClientError.ofService q.kind report q.defaultCode).code =
      report.codeOr q.defaultCode := by
    cases hk : q.kind <;> simp_all [ClientError.ofService, ClientError.code]
  have hmessage : (ClientError.ofService q.kind report q.defaultCode).message =
      if report.message.isEmpty then q.kind.word ++ " failed" else report.message := rfl
  simp only [String.isEmpty_iff] at hmessage
  exact .reported excuse rfl (hcode.trans (codeOr_eq report q.defaultCode)) hmessage

/-- What is read settles a result. -/
theorem Inquiry.settled_read {α : Type} (q : Inquiry α) (value : Json) :
    q.Settled (.ok (.result value)) ((q.read value).mapError .malformed) := by
  cases h : q.read value with
  | ok a => exact .answered h
  | error why => exact .unreadable h rfl rfl

/-- The kinds that reported failures become are none of those that the client raises itself. -/
theorem Method.errorKind_ne (method : Method) :
    method.errorKind ≠ .invalidInput ∧ method.errorKind ≠ .protocol := by
  cases method <;> decide

/-- A request whose result is read, and whose failures are those of its method. -/
theorem Dialogue.follows_request {α : Type} (method : Method) (params : Json)
    {next : Json → Dialogue α} {read : Json → Except Malformed α}
    (h : ∀ value, next value = ofExcept ((read value).mapError .malformed)) :
    ((request method params).bind next).Follows
      (.ok { method, params, kind := method.errorKind, defaultCode := method.defaultCode, read }) := by
  let q : Inquiry α :=
    { method, params, kind := method.errorKind, defaultCode := method.defaultCode, read }
  have hask : (request method params).bind next =
      ask q.call fun response => (ofExcept (response.result? method)).bind next := rfl
  rw [hask]
  refine follows_ask fun response => ?_
  cases response with
  | result value => exact ⟨_, h value, q.settled_read value⟩
  | error report =>
    exact ⟨_, rfl, .ofService rfl method.errorKind_ne.1 method.errorKind_ne.2⟩

theorem Shape.readResult_eq {ρ : Type} (s : Shape ρ) (method : Method) (value : Json) :
    s.readResult method value = (s.ofResult method value).mapError .malformed := by
  simp only [Shape.readResult, Shape.ofResult]
  cases s.decode value.orEmpty <;> rfl

/-- A request whose result is read in a shape. -/
theorem Dialogue.follows_fetch {ρ : Type} (method : Method) (params : Json) (shape : Shape ρ) :
    (fetch method params shape).Follows
      (.ok { method, params, kind := method.errorKind, defaultCode := method.defaultCode,
             read := shape.ofResult method }) := by
  refine follows_request method params fun value => ?_
  rw [Shape.readResult_eq]

/-- A request whose result is read in a shape and made an answer, if it can be made one. -/
theorem Dialogue.follows_fetch_bind {α ρ : Type} (method : Method) (params : Json)
    (shape : Shape ρ) {next : ρ → Dialogue α} {make : ρ → Except Malformed α}
    (h : ∀ r, next r = ofExcept ((make r).mapError .malformed)) :
    ((fetch method params shape).bind next).Follows
      (.ok { method, params, kind := method.errorKind, defaultCode := method.defaultCode,
             read := fun value => (shape.ofResult method value).bind make }) := by
  rw [fetch, bind_assoc]
  refine follows_request method params fun value => ?_
  rw [Shape.readResult_eq]
  cases shape.ofResult method value with
  | error why => rfl
  | ok r => exact h r

theorem Dialogue.follows_fetch_map {α ρ : Type} (method : Method) (params : Json)
    (shape : Shape ρ) (f : ρ → α) :
    ((fetch method params shape).bind fun r => .done (f r)).Follows
      (.ok { method, params, kind := method.errorKind, defaultCode := method.defaultCode,
             read := fun value => (shape.ofResult method value).map f }) := by
  have hread : (fun value => (shape.ofResult method value).map f) =
      fun value => (shape.ofResult method value).bind fun r => .ok (f r) := by
    funext value
    cases shape.ofResult method value <;> rfl
  rw [hread]
  exact follows_fetch_bind method params shape fun _ => rfl

/-- An answer with a token makes a session, and one without is malformed. -/
theorem Client.Operation.session?_eq (answer : AuthResult) (domain authType : String) :
    (match answer.session? domain authType with
      | some session => Dialogue.done session
      | none => .fail (.malformed .noSessionId)) =
      .ofExcept ((readSession domain authType answer).mapError .malformed) := by
  unfold AuthResult.session? readSession
  cases answer.id with
  | none => rfl
  | some id =>
    by_cases h : id = ""
    · subst h
      rfl
    · have hblank : id.isEmpty = false := by simpa [String.isEmpty_iff] using h
      simp only [hblank, if_neg h]
      rfl

theorem Client.Operation.follows (op : Client.Operation) : op.dialogue.Follows op.inquiry := by
  cases op with
  | map address options session =>
    exact Dialogue.follows_accept _ fun _ => Dialogue.follows_fetch_map .map _ MapInfo.shape _
  | perceive url includeContent =>
    exact Dialogue.follows_accept _ fun _ =>
      Dialogue.follows_fetch_map .perceive _ PerceiveResult.shape _
  | status => exact Dialogue.follows_fetch .status _ RuntimeStatus.shape
  | handshake => exact Dialogue.follows_fetch .handshake _ HandshakeResult.shape
  | login address credentials =>
    refine Dialogue.follows_accept _ fun domain => ?_
    refine Dialogue.follows_fetch_bind .auth _ AuthResult.shape fun answer => ?_
    exact session?_eq answer domain.text credentials.authType
  | act url opcode params session =>
    exact Dialogue.follows_accept _ fun _ => Dialogue.follows_fetch .act _ ActResult.shape

theorem Site.follows_find (params : Json) :
    (Site.find params).Follows (.ok (Site.Operation.nodeInquiry params)) :=
  Dialogue.follows_fetch_map .query params QueryResult.shape QueryResult.found

/-- The report that there is no path is an answer, and no other report is one. -/
theorem Site.follows_pathfind (site : Site) (source target : UInt32) (options : PathOptions) :
    (site.pathfind source target options).Follows
      (.ok (Operation.pathInquiry (Params.pathfind site.domain source target options))) := by
  let q := Operation.pathInquiry (Params.pathfind site.domain source target options)
  refine Dialogue.follows_ask (q := q) fun response => ?_
  cases response with
  | result value =>
    have hread : ((Path.shape.readResult .pathfind value).map some) =
        (q.read value).mapError .malformed := by
      rw [Shape.readResult_eq]
      change _ = ((Path.shape.ofResult .pathfind value).map some).mapError _
      cases Path.shape.ofResult .pathfind value <;> rfl
    exact ⟨_, rfl, hread ▸ q.settled_read value⟩
  | error report =>
    by_cases h : report.code = "E_NO_PATH"
    · have hexcuse : q.excuse report = some none := if_pos h
      exact ⟨.ok none, if_pos h, .excused hexcuse⟩
    · have hexcuse : q.excuse report = none := if_neg h
      have hkind := Method.errorKind_ne .pathfind
      refine ⟨.error (.ofService q.kind report q.defaultCode), if_neg h, ?_⟩
      exact .ofService hexcuse hkind.1 hkind.2

theorem Site.Operation.follows (site : Site) (op : Site.Operation) :
    (op.dialogue site).Follows (op.inquiry site.domain) := by
  cases op with
  | filter query => exact Dialogue.follows_accept _ Site.follows_find
  | nearest goal k => exact Dialogue.follows_accept _ Site.follows_find
  | pathfind source target options => exact Site.follows_pathfind site source target options
  | refresh selector =>
    exact Dialogue.follows_accept _ fun _ =>
      Dialogue.follows_fetch .refresh _ RefreshResult.shape
  | act node opcode params session => exact Dialogue.follows_fetch .act _ ActResult.shape
  | watch spec =>
    exact Dialogue.follows_accept _ fun _ => Dialogue.follows_request .watch _ fun _ => rfl

/-- Every operation that makes one request keeps to its inquiry: it refuses its arguments without a
request, or makes the one request and ends as the reply settles it. -/
theorem operations_follow :
    (∀ op : Client.Operation, op.dialogue.Follows op.inquiry) ∧
      ∀ (site : Site) (op : Site.Operation), (op.dialogue site).Follows (op.inquiry site.domain) :=
  ⟨Client.Operation.follows, Site.Operation.follows⟩

end SiteAtlas
