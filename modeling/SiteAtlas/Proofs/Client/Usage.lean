import SiteAtlas.Proofs.Accepted
import SiteAtlas.Proofs.Client.Outcome
import SiteAtlas.Proofs.Site.Members

/-!
# Requests over whole runs

A caller uses a client and the sites that it maps in any order, and the service replies whatever it
likes. What a use sends is known from its own arguments and, on a site, from the address that was
given when the site was mapped. Replies decide only which sites there are to use.

A client holds nothing but its exchange, and a site is a value: what is said here of them holds of
their copies as well.
-/
namespace SiteAtlas

def Exchange.recorded {σ : Type} (exchange : Exchange σ) : Exchange (σ × List Call) :=
  fun call s => ((exchange call s.1).1, (exchange call s.1).2, s.2 ++ [call])

/-- The requests of a run are those that the exchange was handed. -/
theorem Dialogue.run_recorded {σ α : Type} (exchange : Exchange σ) (d : Dialogue α)
    (s : σ × List Call) :
    (d.run exchange.recorded s).state.2 = s.2 ++ (d.run exchange.recorded s).calls := by
  induction d generalizing s with
  | done a => simp
  | fail e => simp
  | ask call next ih =>
    simp only [run, Exchange.recorded]
    cases (exchange call s.1).1 with
    | error e => rfl
    | ok response =>
      have hrest := ih response ((exchange call s.1).2, s.2 ++ [call])
      simpa using hrest

def Inquiry.call? {α : Type} : Except Rejection (Inquiry α) → Option Call
  | .ok q => some q.call
  | .error _ => none

/-- A dialogue sends the request of its plan and nothing else. -/
theorem Dialogue.Follows.calls {σ α : Type} {d : Dialogue α}
    {plan : Except Rejection (Inquiry α)} (h : d.Follows plan) (exchange : Exchange σ) (s : σ) :
    (d.run exchange s).calls = (Inquiry.call? plan).toList := by
  rcases h.ended exchange s with ⟨why, rfl, hrun⟩ | ⟨q, rfl, hcalls, -⟩
  · simp [hrun, Inquiry.call?]
  · simp [hcalls, Inquiry.call?]

/-- An answer is read from a result, or a report stands for it. -/
theorem Dialogue.Follows.answered {σ α : Type} {d : Dialogue α}
    {plan : Except Rejection (Inquiry α)} (h : d.Follows plan) {exchange : Exchange σ} {s : σ}
    {a : α} (ha : (d.run exchange s).outcome = .ok a) :
    ∃ q, plan = .ok q ∧ ((∃ report, q.excuse report = some a) ∨ ∃ value, q.read value = .ok a) := by
  rcases h.ended exchange s with ⟨why, -, hrun⟩ | ⟨q, hplan, -, hsettled⟩
  · rw [hrun] at ha
    cases ha
  · rw [ha] at hsettled
    generalize (exchange q.call s).1 = reply at hsettled
    cases hsettled with
    | excused hexcuse => exact ⟨q, hplan, .inl ⟨_, hexcuse⟩⟩
    | answered hread => exact ⟨q, hplan, .inr ⟨_, hread⟩⟩

/-- A site is mapped under the domain of the address that was given, whatever the reply. -/
theorem Client.domain_of_map {σ : Type} {address : String} {options : MapOptions}
    {session : Option Session} {exchange : Exchange σ} {s : σ} {site : Site}
    (h : ((Client.map address options session).run exchange s).outcome = .ok site) :
    Domain.parse address = .ok site.domain := by
  obtain ⟨q, hplan, hq⟩ := (Client.Operation.follows (.map address options session)).answered h
  obtain ⟨domain, hparse, rfl⟩ := map_eq_ok.1 hplan
  rcases hq with ⟨report, hexcuse⟩ | ⟨value, hread⟩
  · cases hexcuse
  · obtain ⟨info, -, rfl⟩ := map_eq_ok.1 hread
    exact hparse

/-- Every inquiry about a site names the domain of the site. -/
theorem Site.Operation.namedIn_inquiry {domain : Domain} {op : Site.Operation}
    {q : Inquiry op.Answer} (h : op.inquiry domain = .ok q) : domain.NamedIn q.params := by
  cases op with
  | filter query =>
    obtain ⟨params, hparams, rfl⟩ := map_eq_ok.1 h
    exact Params.namedIn_query hparams
  | nearest goal k =>
    obtain ⟨params, hparams, rfl⟩ := map_eq_ok.1 h
    exact Params.namedIn_nearest hparams
  | pathfind source target options =>
    cases h
    exact Params.namedIn_pathfind source target options
  | refresh selector =>
    obtain ⟨params, hparams, rfl⟩ := map_eq_ok.1 h
    exact Params.namedIn_refresh hparams
  | act node opcode params session =>
    cases h
    exact Params.namedIn_act node opcode params session
  | watch spec =>
    obtain ⟨params, hparams, rfl⟩ := map_eq_ok.1 h
    exact Params.namedIn_watch hparams

theorem Site.Operation.namedIn_call {domain : Domain} {op : Site.Operation} {call : Call}
    (h : call ∈ Inquiry.call? (op.inquiry domain)) : domain.NamedIn call.2 := by
  cases hplan : op.inquiry domain with
  | error why =>
    rw [hplan] at h
    cases h
  | ok q =>
    rw [hplan] at h
    cases h
    exact namedIn_inquiry hplan

inductive Use where
  | client (op : Client.Operation)
  /-- on the site that the use of this number mapped -/
  | site (mapping : Nat) (op : Site.Operation)

/-- What came of a use: what it sent, and the site that it mapped, if it did. -/
structure Effect where
  sent : List Call
  mapped : Option Site

def Client.Operation.mapped : (op : Client.Operation) → Except ClientError op.Answer → Option Site
  | .map .., .ok site => some site
  | _, _ => none

/-- The site that the use of a number mapped. -/
def siteAt (effects : List (Option Effect)) (mapping : Nat) : Option Site :=
  match effects[mapping]? with
  | some (some e) => e.mapped
  | _ => none

theorem siteAt_append {effects : List (Option Effect)} {mapping : Nat}
    (h : mapping < effects.length) (more : List (Option Effect)) :
    siteAt (effects ++ more) mapping = siteAt effects mapping := by
  simp only [siteAt, List.getElem?_append_left h]

/-- Where a run of uses is: what came of each use so far, with nothing for a use that had no site,
and the state of the exchange. -/
structure Course (σ : Type) where
  effects : List (Option Effect)
  state : σ

namespace Course

variable {σ τ : Type}

def step (exchange : Exchange σ) (c : Course σ) : Use → Course σ
  | .client op =>
    let r := op.dialogue.run exchange c.state
    ⟨c.effects ++ [some ⟨r.calls, op.mapped r.outcome⟩], r.state⟩
  | .site mapping op =>
    match siteAt c.effects mapping with
    | none => ⟨c.effects ++ [none], c.state⟩
    | some site =>
      let r := (op.dialogue site).run exchange c.state
      ⟨c.effects ++ [some ⟨r.calls, none⟩], r.state⟩

def run (exchange : Exchange σ) (uses : List Use) (s : σ) : Course σ :=
  uses.foldl (step exchange) ⟨[], s⟩

def sent (c : Course σ) : List (List Call) := c.effects.map fun e => e.elim [] Effect.sent

theorem length_step (exchange : Exchange σ) (c : Course σ) (use : Use) :
    (c.step exchange use).effects.length = c.effects.length + 1 := by
  cases use with
  | client op => simp [step]
  | site mapping op => cases h : siteAt c.effects mapping <;> simp [step, h]

/-- The requests that the exchange was handed are those that the uses sent. -/
def Logged (c : Course (σ × List Call)) : Prop := c.state.2 = c.sent.flatten

theorem logged_step {exchange : Exchange σ} {c : Course (σ × List Call)} (h : c.Logged)
    (use : Use) : (c.step exchange.recorded use).Logged := by
  rw [Logged, sent] at h
  cases use with
  | client op => simp [Logged, sent, step, Dialogue.run_recorded, h]
  | site mapping op =>
    cases hsite : siteAt c.effects mapping with
    | none => simp [Logged, sent, step, hsite, h]
    | some site => simp [Logged, sent, step, hsite, Dialogue.run_recorded, h]

theorem logged_run (exchange : Exchange σ) (uses : List Use) (s : σ) :
    (run exchange.recorded uses (s, [])).Logged := by
  have steps : ∀ c : Course (σ × List Call), c.Logged →
      (uses.foldl (step exchange.recorded) c).Logged := by
    induction uses with
    | nil => exact fun c h => h
    | cons use uses ih => exact fun c h => ih _ (logged_step h use)
  exact steps _ rfl

end Course

/-- What a use may come to. What is sent does not depend on any reply. -/
inductive Explained (uses : List Use) (effects : List (Option Effect)) (i : Nat) :
    Use → Option Effect → Prop where
  /-- a use of the client sends what its arguments say; the site that it may map has the domain of
  the address given -/
  | client (op : Client.Operation) {mapped : Option Site}
    (domain : ∀ site, mapped = some site → ∃ address options session,
      op = .map address options session ∧ Domain.parse address = .ok site.domain) :
    Explained uses effects i (.client op) (some ⟨(Inquiry.call? op.inquiry).toList, mapped⟩)
  /-- a use of a site sends what its arguments say about the domain of the address given -/
  | site {mapping : Nat} (op : Site.Operation) {address : String} {options : MapOptions}
    {session : Option Session} {domain : Domain}
    (mapped : uses[mapping]? = some (.client (.map address options session)))
    (parsed : Domain.parse address = .ok domain) :
    Explained uses effects i (.site mapping op)
      (some ⟨(Inquiry.call? (op.inquiry domain)).toList, none⟩)
  /-- only a use of a site that no earlier use mapped comes to nothing -/
  | nothing {mapping : Nat} (op : Site.Operation)
    (unmapped : mapping < i → siteAt effects mapping = none) :
    Explained uses effects i (.site mapping op) none

/-- Each effect is explained by the use at its place. -/
def Explains (uses : List Use) (effects : List (Option Effect)) : Prop :=
  ∀ (i : Nat) (o : Option Effect), effects[i]? = some o →
    ∃ use, uses[i]? = some use ∧ Explained uses effects i use o

theorem Explained.append {uses : List Use} {effects : List (Option Effect)} {i : Nat} {use : Use}
    {o : Option Effect} (h : Explained uses effects i use o) (hi : i ≤ effects.length)
    (more : List (Option Effect)) : Explained uses (effects ++ more) i use o := by
  cases h with
  | client op domain => exact .client op domain
  | site op mapped parsed => exact .site op mapped parsed
  | nothing op unmapped =>
    refine .nothing op fun hlt => ?_
    rw [siteAt_append (Nat.lt_of_lt_of_le hlt hi)]
    exact unmapped hlt

namespace Explains

variable {σ : Type} {uses : List Use} {effects : List (Option Effect)}

/-- A site that is there was mapped by the use of its number, under the address given there. -/
theorem site (h : Explains uses effects) {mapping : Nat} {site : Site}
    (hsite : siteAt effects mapping = some site) :
    ∃ address options session,
      uses[mapping]? = some (.client (.map address options session)) ∧
        Domain.parse address = .ok site.domain := by
  rw [siteAt] at hsite
  split at hsite
  · rename_i e he
    obtain ⟨use, huse, hexplained⟩ := h mapping _ he
    cases hexplained with
    | client op domain =>
      obtain ⟨address, options, session, rfl, hparse⟩ := domain site hsite
      exact ⟨address, options, session, huse, hparse⟩
    | site op mapped parsed => cases hsite
  · cases hsite

/-- One more effect, explained by the use at its place. -/
theorem append (h : Explains uses effects) {use : Use} (huse : uses[effects.length]? = some use)
    {o : Option Effect} (ho : Explained uses effects effects.length use o) :
    Explains uses (effects ++ [o]) := by
  intro i o' hi
  by_cases hlt : i < effects.length
  · rw [List.getElem?_append_left hlt] at hi
    obtain ⟨use, huse, hexplained⟩ := h i o' hi
    exact ⟨use, huse, hexplained.append (Nat.le_of_lt hlt) [o]⟩
  · have hlen : i < (effects ++ [o]).length := (List.getElem?_eq_some_iff.1 hi).1
    have heq : i = effects.length := by
      simp at hlen
      omega
    subst heq
    rw [List.getElem?_concat_length] at hi
    cases hi
    exact ⟨use, huse, ho.append (Nat.le_refl _) [o]⟩

/-- The step: one more use leaves effects that the uses explain. -/
theorem step {c : Course σ} (h : Explains uses c.effects) {use : Use}
    (huse : uses[c.effects.length]? = some use) (exchange : Exchange σ) :
    Explains uses (c.step exchange use).effects := by
  cases use with
  | client op =>
    refine h.append huse ?_
    rw [op.follows.calls exchange c.state]
    refine .client op fun site hsite => ?_
    cases op with
    | map address options session =>
      cases hout : ((Client.Operation.map address options session).dialogue.run exchange
          c.state).outcome with
      | ok answer =>
        rw [hout] at hsite
        cases hsite
        exact ⟨address, options, session, rfl, Client.domain_of_map hout⟩
      | error e =>
        rw [hout] at hsite
        cases hsite
    | _ => cases hsite
  | site mapping op =>
    rw [Course.step]
    cases hsite : siteAt c.effects mapping with
    | none => exact h.append huse (.nothing op fun _ => hsite)
    | some site =>
      obtain ⟨address, options, session, hmap, hparse⟩ := h.site hsite
      refine h.append huse ?_
      rw [(op.follows site).calls exchange c.state]
      exact .site op hmap hparse

/-- The run: the uses explain all effects, whatever the exchange replies. -/
theorem run (exchange : Exchange σ) (uses : List Use) (s : σ) :
    (Course.run exchange uses s).effects.length = uses.length ∧
      Explains uses (Course.run exchange uses s).effects := by
  have steps : ∀ (rest : List Use) (c : Course σ), uses.drop c.effects.length = rest →
      c.effects.length ≤ uses.length → Explains uses c.effects →
      (rest.foldl (Course.step exchange) c).effects.length = uses.length ∧
        Explains uses (rest.foldl (Course.step exchange) c).effects := by
    intro rest
    induction rest with
    | nil =>
      intro c hrest hle h
      have hge := List.drop_eq_nil_iff.1 hrest
      exact ⟨Nat.le_antisymm hle hge, h⟩
    | cons use rest ih =>
      intro c hrest hle h
      have huse : uses[c.effects.length]? = some use := by
        have := congrArg (·[0]?) hrest
        simpa using this
      have hlt : c.effects.length < uses.length := (List.getElem?_eq_some_iff.1 huse).1
      refine ih _ ?_ ?_ (h.step huse exchange)
      · rw [Course.length_step, ← List.drop_drop, hrest]
        rfl
      · rw [Course.length_step]
        exact hlt
  exact steps uses ⟨[], s⟩ rfl (Nat.zero_le _) fun i o hi => nomatch hi

end Explains

namespace Explained

variable {uses : List Use} {effects effects' : List (Option Effect)} {i : Nat} {use : Use}
  {e e' : Effect}

theorem length_sent_le (h : Explained uses effects i use (some e)) : e.sent.length ≤ 1 := by
  cases h with
  | client op _ => cases h : Inquiry.call? op.inquiry <;> simp
  | @site _ op _ _ _ domain _ _ => cases h : Inquiry.call? (op.inquiry domain) <;> simp

/-- Two explanations of the same use agree about what it sent. -/
theorem sent_eq (h : Explained uses effects i use (some e))
    (h' : Explained uses effects' i use (some e')) : e.sent = e'.sent := by
  cases h with
  | client op _ =>
    cases h' with
    | client _ _ => rfl
  | site op mapped parsed =>
    cases h' with
    | site _ mapped' parsed' =>
      cases mapped.symm.trans mapped'
      cases parsed.symm.trans parsed'
      rfl

end Explained

/-- The client keeps no hidden state. In every run the exchange is handed what the uses send, one
after another and at most one request each; a use sends what its own arguments say, on a site about
the domain of the address that was mapped, and that domain is in the request. So two runs of the
same uses, with whatever replies, send the same for every use that both of them make. -/
theorem no_hidden_state {σ τ : Type} (uses : List Use) (exchange : Exchange σ) (s : σ)
    (other : Exchange τ) (t : τ) :
    let course := Course.run exchange.recorded uses (s, [])
    let again := Course.run other.recorded uses (t, [])
    course.state.2 = course.sent.flatten ∧
      course.effects.length = uses.length ∧
      Explains uses course.effects ∧
      (∀ (i : Nat) (e : Effect), course.effects[i]? = some (some e) → e.sent.length ≤ 1) ∧
      (∀ (i : Nat) (e e' : Effect), course.effects[i]? = some (some e) →
        again.effects[i]? = some (some e') → e.sent = e'.sent) ∧
      ∀ (i : Nat) (e : Effect) (mapping : Nat) (op : Site.Operation),
        uses[i]? = some (.site mapping op) → course.effects[i]? = some (some e) →
        ∃ address options session domain,
          uses[mapping]? = some (.client (.map address options session)) ∧
            Domain.parse address = .ok domain ∧ ∀ call ∈ e.sent, domain.NamedIn call.2 := by
  intro course again
  obtain ⟨hlength, hexplains⟩ := Explains.run exchange.recorded uses (s, [])
  obtain ⟨-, hexplains'⟩ := Explains.run other.recorded uses (t, [])
  refine ⟨Course.logged_run exchange uses s, hlength, hexplains, ?_, ?_, ?_⟩
  · intro i e he
    obtain ⟨use, -, hexplained⟩ := hexplains i _ he
    exact hexplained.length_sent_le
  · intro i e e' he he'
    obtain ⟨use, huse, hexplained⟩ := hexplains i _ he
    obtain ⟨use', huse', hexplained'⟩ := hexplains' i _ he'
    cases huse.symm.trans huse'
    exact hexplained.sent_eq hexplained'
  · intro i e mapping op huse he
    obtain ⟨use, huse', hexplained⟩ := hexplains i _ he
    cases huse.symm.trans huse'
    cases hexplained with
    | @site _ op address options session domain mapped parsed =>
      refine ⟨address, options, session, domain, mapped, parsed, fun call hcall => ?_⟩
      exact Site.Operation.namedIn_call (Option.mem_toList.1 hcall)

/-- A site is mapped and asked for a route, twice over: once the service gives it another name and
knows no route, once it says nothing at all. -/
theorem no_hidden_state_renamed :
    let uses : List Use := [.client (.map "https://a.com/x" {} none), .site 0 (.pathfind 1 2 {})]
    let mapping : Call := (.map, Params.map ⟨"a.com"⟩ {} none)
    let search : Call := (.pathfind, Params.pathfind ⟨"a.com"⟩ 1 2 {})
    let course := Course.run Exchange.scripted.recorded uses
      ([.ok (.result (.object [("domain", .text "b.com"), ("node_count", .int 7)])),
        .ok (.error ⟨"E_NO_PATH", ""⟩)], [])
    let again := Course.run Exchange.scripted.recorded uses
      ([.ok (.result .null), .ok (.result .null)], [])
    let seven : Effect := ⟨[mapping], some ⟨⟨"a.com"⟩, ⟨7, 0, none, false⟩⟩⟩
    let blank : Effect := ⟨[mapping], some ⟨⟨"a.com"⟩, ⟨0, 0, none, false⟩⟩⟩
    course.effects[0]? = some (some seven) ∧ again.effects[0]? = some (some blank) ∧
      seven.sent = blank.sent ∧ seven.sent.length ≤ 1 ∧
      course.effects[1]? = some (some ⟨[search], none⟩) ∧
      ∃ address options session domain,
        uses[0]? = some (.client (.map address options session)) ∧
          Domain.parse address = .ok domain ∧ ∀ call ∈ [search], domain.NamedIn call.2 := by
  intro uses mapping search course again seven blank
  obtain ⟨-, -, -, hle, hsent, hnamed⟩ := no_hidden_state uses Exchange.scripted
    [.ok (.result (.object [("domain", .text "b.com"), ("node_count", .int 7)])),
      .ok (.error ⟨"E_NO_PATH", ""⟩)]
    Exchange.scripted [.ok (.result .null), .ok (.result .null)]
  exact ⟨rfl, rfl, hsent 0 seven blank rfl rfl, hle 0 seven rfl, rfl,
    hnamed 1 ⟨[search], none⟩ 0 _ rfl rfl⟩

end SiteAtlas
