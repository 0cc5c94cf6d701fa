import SiteAtlas.Proofs.Client.Outcome
import SiteAtlas.Proofs.Page.Matches
import SiteAtlas.Proofs.Wire.Envelope

/-!
# Answers

An operation has an answer if its reply has a result from which the answer is read. For a search the
answer is the list of the service: nothing is sorted, cut off or left out, and one element that is no
node spoils the whole list.
-/
namespace SiteAtlas

namespace Inquiry

variable {α : Type} {q : Inquiry α} {reply : Except ClientError Response}
  {outcome : Except ClientError α}

/-- The reply has a result, and the answer is read from it. -/
def Answered (q : Inquiry α) (reply : Except ClientError Response) (a : α) : Prop :=
  ∃ value, reply = .ok (.result value) ∧ q.read value = .ok a

@[simp] theorem answered_result {value : Json} {a : α} :
    q.Answered (.ok (.result value)) a ↔ q.read value = .ok a := by
  simp [Answered]

/-- No report of a failure stands for an answer. -/
def Unexcused (q : Inquiry α) : Prop := ∀ report, q.excuse report = none

theorem Settled.ok_iff (plain : q.Unexcused) (h : q.Settled reply outcome) {a : α} :
    outcome = .ok a ↔ q.Answered reply a := by
  cases h with
  | broken e => simp [Answered]
  | excused answer =>
    rw [plain] at answer
    cases answer
  | reported answer kind code message => simp [Answered]
  | answered answer => simp [answer]
  | unreadable answer kind message => simp [answer]

/-- A result from which no answer is read makes the reply malformed. -/
theorem Settled.kind_of_result {value : Json} {e : ClientError}
    (h : q.Settled (.ok (.result value)) (.error e)) : e.kind = .protocol := by
  cases h with
  | unreadable answer kind message => exact kind

end Inquiry

/-- A dialogue that follows an inquiry makes its request and has the answers that the reply gives. -/
theorem Dialogue.Follows.run_eq_ok {σ α : Type} {d : Dialogue α} {q : Inquiry α}
    (h : d.Follows (.ok q)) (plain : q.Unexcused) (exchange : Exchange σ) (s : σ) :
    (d.run exchange s).calls = [q.call] ∧
      (d.run exchange s).state = (exchange q.call s).2 ∧
      ∀ a, (d.run exchange s).outcome = .ok a ↔ q.Answered (exchange q.call s).1 a := by
  obtain ⟨outcome, hrun, hsettled⟩ := h σ exchange s
  rw [hrun]
  exact ⟨rfl, rfl, fun a => hsettled.ok_iff plain⟩

/-- What such a dialogue comes to when the reply has a result. -/
theorem Dialogue.Follows.run_of_result {σ α : Type} {d : Dialogue α} {q : Inquiry α}
    (h : d.Follows (.ok q)) (plain : q.Unexcused) {exchange : Exchange σ} {s : σ} {value : Json}
    (reply : (exchange q.call s).1 = .ok (.result value)) :
    (∀ a, (d.run exchange s).outcome = .ok a ↔ q.read value = .ok a) ∧
      ∀ e, (d.run exchange s).outcome = .error e → e.kind = .protocol := by
  obtain ⟨outcome, hrun, hsettled⟩ := h σ exchange s
  rw [reply] at hsettled
  rw [hrun]
  refine ⟨fun a => (hsettled.ok_iff plain).trans Inquiry.answered_result, fun e he => ?_⟩
  have herror : outcome = .error e := he
  rw [herror] at hsettled
  exact hsettled.kind_of_result

theorem Shape.ofResult_eq_ok {ρ : Type} {s : Shape ρ} {method : Method} {value : Json} {r : ρ} :
    s.ofResult method value = .ok r ↔ s.decode value.orEmpty = .ok r :=
  mapError_eq_ok

/-- A search on a site whose arguments are accepted, with the parameters of its request. -/
inductive Site.Search (site : Site) : Dialogue (List NodeMatch) → Json → Prop where
  | filter {q : Query} {params : Json} (valid : Params.query site.domain q = .ok params) :
    Search site (site.filter q) params
  | nearest {goal : List Float} {k : UInt32} {params : Json}
    (valid : Params.nearest site.domain goal k = .ok params) :
    Search site (site.nearest goal k) params

theorem Site.Search.follows {site : Site} {d : Dialogue (List NodeMatch)} {params : Json}
    (h : site.Search d params) : d.Follows (.ok (Operation.nodeInquiry params)) := by
  cases h with
  | @filter q _ valid =>
    have hfollows := Operation.follows site (.filter q)
    rwa [Operation.inquiry, valid] at hfollows
  | @nearest goal k _ valid =>
    have hfollows := Operation.follows site (.nearest goal k)
    rwa [Operation.inquiry, valid] at hfollows

/-- A query for the first nodes of a site is valid, and asks for nothing else. -/
theorem Params.query_limit (domain : Domain) (limit : UInt32) :
    Params.query domain (Query.default.withLimit limit) =
      .ok (.object [("domain", domain.json), ("limit", .nat limit.toNat)]) := by
  have hmembers : Params.query domain (Query.default.withLimit limit) =
      .ok (.ofMembers [("domain", domain.json), ("limit", .nat limit.toNat)]) := rfl
  rw [hmembers, Json.ofMembers_pair (by decide)]

theorem Site.Operation.read_nodeInquiry {params value : Json} {found : List NodeMatch} :
    (nodeInquiry params).read value = .ok found ↔
      QueryResult.shape.decode value.orEmpty = .ok ⟨found⟩ := by
  refine map_eq_ok.trans ⟨?_, fun h => ⟨⟨found⟩, Shape.ofResult_eq_ok.2 h, rfl⟩⟩
  rintro ⟨answer, hanswer, rfl⟩
  exact Shape.ofResult_eq_ok.1 hanswer

/-- What a search comes to when its reply has a result. -/
theorem Site.Search.run_of_result {σ : Type} {exchange : Exchange σ} {s t : σ} {site : Site}
    {d : Dialogue (List NodeMatch)} {params value : Json} (search : site.Search d params)
    (reply : exchange (.query, params) s = (.ok (.result value), t)) :
    (d.run exchange s).calls = [(.query, params)] ∧ (d.run exchange s).state = t ∧
      (∀ found, (d.run exchange s).outcome = .ok found ↔
        QueryResult.shape.decode value.orEmpty = .ok ⟨found⟩) ∧
      ∀ e, (d.run exchange s).outcome = .error e → e.kind = .protocol := by
  let q := Operation.nodeInquiry params
  have hreply : exchange q.call s = (.ok (.result value), t) := reply
  have plain : q.Unexcused := fun _ => rfl
  obtain ⟨hcalls, hstate, -⟩ := search.follows.run_eq_ok plain exchange s
  obtain ⟨hok, herror⟩ := search.follows.run_of_result plain (congrArg Prod.fst hreply)
  rw [hreply] at hstate
  exact ⟨hcalls, hstate, fun found => (hok found).trans Operation.read_nodeInquiry, herror⟩

/-- A search whose reply is an object finds nothing if the object has no list of nodes. Otherwise it
succeeds if every element of the list is a node on its own, and then finds the nodes of the list, as
many and in the same order; if one is not, the reply is malformed. -/
theorem found_as_listed {σ : Type} {exchange : Exchange σ} {s t : σ} {site : Site}
    {d : Dialogue (List NodeMatch)} {params : Json} (search : site.Search d params)
    {members : List (String × Json)} (distinct : members.Pairwise fun m n => m.1 ≠ n.1)
    (reply : exchange (.query, params) s = (.ok (.result (.object members)), t)) :
    let r := d.run exchange s
    let listed := (Json.object members).member? "matches"
    r.calls = [(.query, params)] ∧ r.state = t ∧
      (listed = none → r.outcome = .ok []) ∧
      (∀ j, listed = some j →
        ((∃ found, r.outcome = .ok found) ↔
          ∃ items, j = .list items ∧ ∀ item ∈ items, ∃ m, NodeMatch.shape.decode item = .ok m) ∧
        ∀ items found, j = .list items → r.outcome = .ok found →
          found.length = items.length ∧
            ∀ (i : Nat) (item : Json), items[i]? = some item →
              ∃ m, found[i]? = some m ∧ NodeMatch.shape.decode item = .ok m) ∧
      ∀ e, r.outcome = .error e → e.kind = .protocol := by
  intro r listed
  obtain ⟨hcalls, hstate, hok, herror⟩ := search.run_of_result reply
  have hread (found : List NodeMatch) := (hok found).trans (QueryResult.decode_object_eq_ok distinct)
  have hsome {j : Json} (hj : listed = some j) (found : List NodeMatch) : r.outcome = .ok found ↔
      ∃ items, j = .list items ∧ items.map NodeMatch.shape.decode = found.map .ok := by
    have hmember : (Json.object members).member? "matches" = some j := hj
    have hfound := hread found
    rwa [hmember] at hfound
  refine ⟨hcalls, hstate, fun hnone => ?_, fun j hj => ⟨?_, ?_⟩, herror⟩
  · have hmember : (Json.object members).member? "matches" = none := hnone
    have hempty := hread []
    rw [hmember] at hempty
    exact hempty.2 rfl
  · simp only [hsome hj]
    rw [exists_comm]
    simp only [exists_and_left, exists_map_eq_map_ok]
  · intro items found hitems hfoundOk
    subst hitems
    obtain ⟨_, hlist, hmap⟩ := (hsome hj found).1 hfoundOk
    cases hlist
    have hlength := congrArg List.length hmap
    rw [List.length_map, List.length_map] at hlength
    refine ⟨hlength.symm, fun i item hitem => ?_⟩
    have hdecode : (Codec.list NodeMatch.shape.codec).decode (.list items) = .ok found :=
      Codec.list_eq_ok.2 ⟨items, rfl, hmap⟩
    exact Codec.getElem?_of_list hdecode hitem

/-- A search for a single node gets three, one of them twice and the closest one not first, and keeps
them all. Another reply has an index that is no number, and nothing of it is kept. -/
theorem found_as_listed_twice :
    let site : Site := ⟨⟨"a.com"⟩, ⟨9, 12, none, false⟩⟩
    let search := site.filter (Query.default.withLimit 1)
    let params : Json := .object [("domain", .text "a.com"), ("limit", .int 1)]
    let far : Json := .object [("index", .int 7), ("similarity", .float 0.25)]
    let near : Json := .object [("index", .int 2), ("similarity", .float 0.5)]
    let whole : List (String × Json) := [("matches", .list [far, near, far]), ("total", .int 9)]
    let broken : List (String × Json) := [("matches", .list [far, .object [("index", .text "2")]])]
    let exchange (members : List (String × Json)) : Exchange Unit :=
      fun _ s => (.ok (.result (.object members)), s)
    site.Search search params ∧
      (∃ found, (search.run (exchange whole) ()).outcome = .ok found ∧ found.length = 3 ∧
        ∃ m, found[2]? = some m ∧ NodeMatch.shape.decode far = .ok m) ∧
      (¬∃ found, (search.run (exchange broken) ()).outcome = .ok found) ∧
      ∀ e, (search.run (exchange broken) ()).outcome = .error e → e.kind = .protocol := by
  intro site search params far near whole broken exchange
  have hsearch : site.Search search params := .filter (Params.query_limit site.domain 1)
  have hwholeReply : exchange whole (.query, params) () = (.ok (.result (.object whole)), ()) := rfl
  have hbrokenReply : exchange broken (.query, params) () = (.ok (.result (.object broken)), ()) :=
    rfl
  obtain ⟨-, -, -, hlisted, -⟩ := found_as_listed hsearch (by decide) hwholeReply
  obtain ⟨-, -, -, hbroken, hprotocol⟩ := found_as_listed hsearch (by decide) hbrokenReply
  obtain ⟨hiff, hitems⟩ := hlisted _ rfl
  have hfar : NodeMatch.shape.decode far = .ok ⟨7, "", 0, 0.0, .empty, some 0.25⟩ := rfl
  have hnear : NodeMatch.shape.decode near = .ok ⟨2, "", 0, 0.0, .empty, some 0.5⟩ := rfl
  obtain ⟨found, hfound⟩ := hiff.2 ⟨_, rfl, by simp [hfar, hnear]⟩
  obtain ⟨hlength, hentries⟩ := hitems _ found rfl hfound
  refine ⟨hsearch, ⟨found, hfound, hlength, hentries 2 far rfl⟩, fun hok => ?_, hprotocol⟩
  obtain ⟨_, hlist, hdecode⟩ := (hbroken _ rfl).1.1 hok
  cases hlist
  obtain ⟨m, hm⟩ := hdecode (.object [("index", .text "2")]) (by simp)
  cases hm

end SiteAtlas
