import SiteAtlas.Proofs.Accepted
import SiteAtlas.Proofs.Client.Outcome

/-!
# Refused items of a batch

Mapping, comparing and looking at several sites or pages goes on item by item, and an item is
checked when its turn comes. So a batch may be refused after requests for the items before.
-/
namespace SiteAtlas

namespace Dialogue

variable {σ α β : Type}

@[simp] theorem bind_done (d : Dialogue α) : d.bind .done = d := by
  induction d with
  | done a => rfl
  | fail e => rfl
  | ask call next ih => simp [bind, ih]

instance : LawfulMonad Dialogue :=
  .mk' Dialogue (fun d => bind_done d) (fun _ _ => rfl) bind_assoc

theorem mapM_cons_eq {ι : Type} (f : ι → Dialogue α) (item : ι) (rest : List ι) :
    (item :: rest).mapM f =
      (f item).bind fun a => (rest.mapM f).bind fun as => .done (a :: as) :=
  List.mapM_cons

/-- An error of two dialogues in sequence is one of the first, or one of the second after an answer
of the first. -/
theorem run_bind_error {exchange : Exchange σ} {d : Dialogue α} {f : α → Dialogue β} {s : σ}
    {e : ClientError} (h : ((d.bind f).run exchange s).outcome = .error e) :
    ((d.run exchange s).outcome = .error e ∧
      ((d.bind f).run exchange s).calls = (d.run exchange s).calls) ∨
    ∃ a t, (d.run exchange s).outcome = .ok a ∧ ((f a).run exchange t).outcome = .error e ∧
      ((d.bind f).run exchange s).calls =
        (d.run exchange s).calls ++ ((f a).run exchange t).calls := by
  rw [run_bind] at h ⊢
  cases hrun : d.run exchange s with
  | mk outcome calls t =>
    rw [hrun] at h
    cases outcome with
    | error e' =>
      cases h
      exact .inl ⟨rfl, rfl⟩
    | ok a => exact .inr ⟨a, t, rfl, h, rfl⟩

end Dialogue

/-- An exchange that does not itself refuse arguments. -/
def Exchange.NeverRefuses {σ : Type} (exchange : Exchange σ) : Prop :=
  ∀ (call : Call) (s : σ) (e : ClientError),
    (exchange call s).1 = .error e → e.isClientSide = false

/-- A dialogue about checked arguments: with an answer it made the request that they give, and with
an error of the client's side they were refused, and no request was made. -/
structure Dialogue.Checked {σ α : Type} (exchange : Exchange σ) (d : Dialogue α)
    (check : Except Rejection Call) : Prop where
  answered : ∀ (s : σ) (a : α), (d.run exchange s).outcome = .ok a →
    ∃ call, check = .ok call ∧ (d.run exchange s).calls = [call]
  refused : ∀ (s : σ) (e : ClientError), (d.run exchange s).outcome = .error e →
    e.isClientSide = true →
      ∃ why, check = .error why ∧ e = .rejected why ∧ (d.run exchange s).calls = []

/-- What settles an inquiry is not of the client's side, unless the channel says that it is. -/
theorem Inquiry.Settled.isClientSide {α : Type} {q : Inquiry α} {e : ClientError}
    {reply : Except ClientError Response} (h : q.Settled reply (.error e))
    (kind : q.kind ≠ .invalidInput) : e.isClientSide = true → reply = .error e := by
  intro hside
  have hinput : e.kind = .invalidInput := by simpa [ClientError.isClientSide] using hside
  cases h with
  | broken => rfl
  | reported _ hkind => exact absurd (hkind.symm.trans hinput) kind
  | unreadable _ hkind => simp [hinput] at hkind

namespace Dialogue

variable {σ α β : Type} {exchange : Exchange σ}

/-- A dialogue that follows the plan of checked arguments is checked, if no report becomes an error
of the client's side. -/
theorem Follows.checked {d : Dialogue α} {args : Except Rejection β} {g : β → Inquiry α}
    (h : d.Follows (args.map g)) (kind : ∀ b, (g b).kind ≠ .invalidInput)
    (never : exchange.NeverRefuses) : d.Checked exchange (args.map fun b => (g b).call) := by
  constructor
  · intro s a ha
    rcases h.ended exchange s with ⟨why, -, hrun⟩ | ⟨q, hplan, hcalls, -⟩
    · rw [hrun] at ha
      cases ha
    · obtain ⟨b, rfl, rfl⟩ := map_eq_ok.1 hplan
      exact ⟨(g b).call, rfl, hcalls⟩
  · intro s e he hside
    rcases h.ended exchange s with ⟨why, hplan, hrun⟩ | ⟨q, hplan, -, hsettled⟩
    · rw [hrun] at he
      cases he
      exact ⟨why, map_eq_error.2 (map_eq_error.1 hplan), rfl, by rw [hrun]⟩
    · obtain ⟨b, rfl, rfl⟩ := map_eq_ok.1 hplan
      rw [he] at hsettled
      have hreply := hsettled.isClientSide (kind b) hside
      simp [never (g b).call s e hreply] at hside

end Dialogue

/-- A batch that is given up at an item that is refused, with the requests for the items before it,
all of which were accepted. -/
inductive GivenUp {ι : Type} (check : ι → Except Rejection Call) :
    List ι → ClientError → List Call → Prop where
  | here {item : ι} {rest : List ι} {why : Rejection} (refused : check item = .error why) :
    GivenUp check (item :: rest) (.rejected why) []
  | later {item : ι} {rest : List ι} {e : ClientError} {call : Call} {calls : List Call}
    (accepted : check item = .ok call) (h : GivenUp check rest e calls) :
    GivenUp check (item :: rest) e (call :: calls)

def StartsRefused {ι : Type} (check : ι → Except Rejection Call) (items : List ι) : Prop :=
  ∃ item ∈ items.head?, ∃ why, check item = .error why

namespace GivenUp

variable {ι : Type} {check : ι → Except Rejection Call} {items : List ι} {e : ClientError}
  {calls : List Call}

/-- There was no request if and only if there was no item before. -/
theorem calls_eq_nil_iff (h : GivenUp check items e calls) :
    calls = [] ↔ StartsRefused check items := by
  cases h with
  | here refused => simp [StartsRefused, refused]
  | later accepted h => simp [StartsRefused, accepted]

theorem exists_refused (h : GivenUp check items e calls) :
    ∃ item ∈ items, ∃ why, check item = .error why := by
  induction h with
  | @here item rest why refused => exact ⟨item, by simp, why, refused⟩
  | later accepted h ih =>
    obtain ⟨item, hitem, hwhy⟩ := ih
    exact ⟨item, by simp [hitem], hwhy⟩

end GivenUp

/-- A batch of checked dialogues with an error of the client's side was given up. -/
theorem Dialogue.givenUp_mapM {σ ι α : Type} {exchange : Exchange σ} {f : ι → Dialogue α}
    {check : ι → Except Rejection Call} (h : ∀ item, (f item).Checked exchange (check item))
    (items : List ι) {s : σ} {e : ClientError} (side : e.isClientSide = true)
    (he : ((items.mapM f).run exchange s).outcome = .error e) :
    GivenUp check items e ((items.mapM f).run exchange s).calls := by
  induction items generalizing s with
  | nil => cases he
  | cons item rest ih =>
    rw [mapM_cons_eq] at he ⊢
    rcases run_bind_error he with ⟨hitem, hcalls⟩ | ⟨a, t, hitem, hrest, hcalls⟩
    · obtain ⟨why, hcheck, rfl, hnone⟩ := (h item).refused s e hitem side
      rw [hcalls, hnone]
      exact .here hcheck
    · obtain ⟨call, hcheck, hone⟩ := (h item).answered s a hitem
      rcases run_bind_error hrest with ⟨hrest, hmore⟩ | ⟨as, u, -, hdone, -⟩
      · rw [hcalls, hone, hmore]
        exact .later hcheck (ih hrest)
      · cases hdone

namespace Client

variable {σ : Type} {exchange : Exchange σ}

def mapCheck (options : MapOptions) (address : String) : Except Rejection Call :=
  (Domain.parse address).map fun domain => (.map, Params.map domain options none)

def perceiveCheck (includeContent : Bool) (url : String) : Except Rejection Call :=
  (Params.perceive url includeContent).map fun params => (.perceive, params)

theorem checked_map (never : exchange.NeverRefuses) (options : MapOptions) (address : String) :
    (map address options none).Checked exchange (mapCheck options address) :=
  (Operation.follows (.map address options none)).checked (fun _ => by simp) never

theorem checked_perceive (never : exchange.NeverRefuses) (includeContent : Bool) (url : String) :
    (perceive url includeContent).Checked exchange (perceiveCheck includeContent url) :=
  (Operation.follows (.perceive url includeContent)).checked (fun _ => by simp) never

def listingCheck (limit : UInt32) (site : Site) : Except Rejection Call :=
  (Params.query site.domain (Query.default.withLimit limit)).map fun params => (.query, params)

theorem checked_listing (never : exchange.NeverRefuses) (limit : UInt32) (site : Site) :
    (listing limit site).Checked exchange (listingCheck limit site) := by
  have hfollows : (listing limit site).Follows
      ((Params.query site.domain (Query.default.withLimit limit)).map fun params =>
        { method := .query
          params
          kind := .notFound
          defaultCode := "E_NOT_FOUND"
          read := fun value => (QueryResult.shape.ofResult .query value).map fun answer =>
            (site.domain.text, PageSet.ofList (answer.found.map NodeMatch.pageType)) }) := by
    rw [listing, Site.filter, Dialogue.bind_assoc]
    refine Dialogue.follows_accept _ fun params => ?_
    rw [Site.find, Dialogue.bind_assoc]
    exact Dialogue.follows_fetch_map .query params QueryResult.shape _
  exact hfollows.checked (fun _ => by simp) never

/-- The query for a listing is never refused. -/
theorem listingCheck_ne_error (limit : UInt32) (site : Site) (why : Rejection) :
    listingCheck limit site ≠ .error why :=
  fun h => nomatch h

theorem givenUp_mapMany (never : exchange.NeverRefuses) (addresses : List String)
    (options : MapOptions) {s : σ} {e : ClientError} (side : e.isClientSide = true)
    (he : ((mapMany addresses options).run exchange s).outcome = .error e) :
    GivenUp (mapCheck options) addresses e ((mapMany addresses options).run exchange s).calls :=
  Dialogue.givenUp_mapM (checked_map never options) addresses side he

/-- A comparison is given up while sites are mapped: nothing is refused about a site. -/
theorem givenUp_compare (never : exchange.NeverRefuses) (addresses : List String)
    (limit : UInt32) {s : σ} {e : ClientError} (side : e.isClientSide = true)
    (he : ((compare addresses limit).run exchange s).outcome = .error e) :
    GivenUp (mapCheck {}) addresses e ((compare addresses limit).run exchange s).calls := by
  have hcompare : compare addresses limit =
      (mapMany addresses {}).bind fun sites =>
        (sites.mapM (listing limit)).bind fun listings => .done (Listing.compare listings) := rfl
  rw [hcompare] at he ⊢
  rcases Dialogue.run_bind_error he with ⟨hmap, hcalls⟩ | ⟨sites, t, -, hlist, -⟩
  · rw [hcalls]
    exact givenUp_mapMany never addresses {} side hmap
  · rcases Dialogue.run_bind_error hlist with ⟨hlist, -⟩ | ⟨listings, u, -, hdone, -⟩
    · -- the listings are a batch as well, but one in which no item can be refused
      have hgiven := Dialogue.givenUp_mapM (checked_listing never limit) sites side hlist
      obtain ⟨site, -, why, hwhy⟩ := hgiven.exists_refused
      exact absurd hwhy (listingCheck_ne_error limit site why)
    · cases hdone

end Client

/-- A batch with an error of the client's side was given up at an item that is refused, after the
requests for all items before it. So nothing was sent if and only if the first item is refused. -/
theorem batch_given_up {σ : Type} {exchange : Exchange σ} (never : exchange.NeverRefuses)
    (items : List String) (s : σ) (e : ClientError) (side : e.isClientSide = true) :
    (∀ options, let r := (Client.mapMany items options).run exchange s
      r.outcome = .error e → GivenUp (Client.mapCheck options) items e r.calls ∧
        (r.calls = [] ↔ StartsRefused (Client.mapCheck options) items)) ∧
    (∀ limit, let r := (Client.compare items limit).run exchange s
      r.outcome = .error e → GivenUp (Client.mapCheck {}) items e r.calls ∧
        (r.calls = [] ↔ StartsRefused (Client.mapCheck {}) items)) ∧
    ∀ includeContent, let r := (Client.perceiveMany items includeContent).run exchange s
      r.outcome = .error e → GivenUp (Client.perceiveCheck includeContent) items e r.calls ∧
        (r.calls = [] ↔ StartsRefused (Client.perceiveCheck includeContent) items) := by
  refine ⟨?_, ?_, ?_⟩
  · intro options r he
    have h := Client.givenUp_mapMany never items options side he
    exact ⟨h, h.calls_eq_nil_iff⟩
  · intro limit r he
    have h := Client.givenUp_compare never items limit side he
    exact ⟨h, h.calls_eq_nil_iff⟩
  · intro includeContent r he
    have h := Dialogue.givenUp_mapM (Client.checked_perceive never includeContent) items side he
    exact ⟨h, h.calls_eq_nil_iff⟩

/-- One batch is refused at its first item and one at its second item. -/
theorem batch_given_up_at :
    let exchange : Exchange Unit := fun _ s => (.ok (.result .null), s)
    let first := (Client.perceiveMany [" ", "https://a.com"] true).run exchange ()
    let second := (Client.mapMany ["https://a.com/x", "http://", "b.com"] {}).run exchange ()
    exchange.NeverRefuses ∧ first.outcome = .error (.rejected .emptyUrl) ∧
      second.outcome = .error (.rejected (.emptyHost "http://")) ∧
      (first.calls = [] ↔ StartsRefused (Client.perceiveCheck true) [" ", "https://a.com"]) ∧
      GivenUp (Client.mapCheck {}) ["https://a.com/x", "http://", "b.com"]
        (.rejected (.emptyHost "http://")) second.calls := by
  intro exchange first second
  have never : exchange.NeverRefuses := fun _ _ _ h => nomatch h
  obtain ⟨-, -, hfirst⟩ := batch_given_up never [" ", "https://a.com"] () (.rejected .emptyUrl) rfl
  obtain ⟨hsecond, -, -⟩ := batch_given_up never ["https://a.com/x", "http://", "b.com"] ()
    (.rejected (.emptyHost "http://")) rfl
  exact ⟨never, rfl, rfl, (hfirst true rfl).2, (hsecond {} rfl).1⟩

/-- Each batch may be refused after a request: here the first item is sent and the second one, which
is blank, is refused. -/
theorem batch_refused_after_request :
    let exchange : Exchange Unit := fun _ s => (.ok (.result .null), s)
    let mapping : Call := (.map, Params.map ⟨"a.com"⟩ {} none)
    let page : Call := (.perceive,
      .object [("include_content", .bool true), ("url", .text "a.com")])
    exchange.NeverRefuses ∧ (ClientError.rejected .emptyDomain).isClientSide = true ∧
      (ClientError.rejected .emptyUrl).isClientSide = true ∧
      (Client.mapMany ["a.com", ""] {}).run exchange () =
        ⟨.error (.rejected .emptyDomain), [mapping], ()⟩ ∧
      (Client.compare ["a.com", ""] 100).run exchange () =
        ⟨.error (.rejected .emptyDomain), [mapping], ()⟩ ∧
      (Client.perceiveMany ["a.com", ""] true).run exchange () =
        ⟨.error (.rejected .emptyUrl), [page], ()⟩ :=
  ⟨fun _ _ _ h => (nomatch h), rfl, rfl, rfl, rfl, rfl⟩

end SiteAtlas
