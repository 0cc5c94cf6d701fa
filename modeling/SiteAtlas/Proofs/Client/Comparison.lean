import SiteAtlas.Proofs.Client.Answers
import SiteAtlas.Proofs.Client.Sequence
import SiteAtlas.Proofs.Client.Usage
import SiteAtlas.Proofs.Page.Matches

/-!
# Comparisons from end to end

A comparison makes two rounds of requests: all sites are mapped, and then the first nodes of all sites
are listed. Replies belong to sites by their order alone, and only the page types in the lists count.
-/
namespace SiteAtlas

variable {σ ι α ρ : Type}

namespace Exchange

/-- The replies to requests that are made one after another. -/
def replies (exchange : Exchange σ) : List Call → σ → List (Except ClientError Response)
  | [], _ => []
  | call :: rest, s => (exchange call s).1 :: replies exchange rest (exchange call s).2

def after (exchange : Exchange σ) : List Call → σ → σ
  | [], s => s
  | call :: rest, s => after exchange rest (exchange call s).2

theorem length_replies (exchange : Exchange σ) (calls : List Call) (s : σ) :
    (exchange.replies calls s).length = calls.length := by
  induction calls generalizing s with
  | nil => rfl
  | cons call rest ih => rw [replies, List.length_cons, List.length_cons, ih]

end Exchange

def Shape.ReadsReply (shape : Shape ρ) (reply : Except ClientError Response) (r : ρ) : Prop :=
  ∃ value, reply = .ok (.result value) ∧ shape.decode value.orEmpty = .ok r

namespace Dialogue

/-- A request whose result is read in a shape has an answer if the reply is read. -/
theorem run_fetch_map_eq_ok (exchange : Exchange σ) (method : Method) (params : Json)
    (shape : Shape ρ) (make : ρ → α) (s : σ) :
    let run := ((fetch method params shape).bind fun r => .done (make r)).run exchange s
    run.calls = [(method, params)] ∧ run.state = (exchange (method, params) s).2 ∧
      ∀ a, run.outcome = .ok a ↔
        ∃ r, shape.ReadsReply (exchange (method, params) s).1 r ∧ make r = a := by
  intro run
  obtain ⟨hcalls, hstate, hok⟩ :=
    (follows_fetch_map method params shape make).run_eq_ok (fun _ => rfl) exchange s
  refine ⟨hcalls, hstate, fun a => (hok a).trans ⟨?_, ?_⟩⟩
  · rintro ⟨value, hreply, hread⟩
    obtain ⟨r, hr, ha⟩ := map_eq_ok.1 hread
    exact ⟨r, ⟨value, hreply, Shape.ofResult_eq_ok.1 hr⟩, ha⟩
  · rintro ⟨r, ⟨value, hreply, hr⟩, ha⟩
    exact ⟨value, hreply, map_eq_ok.2 ⟨r, Shape.ofResult_eq_ok.2 hr, ha⟩⟩

variable {exchange : Exchange σ} {f : ι → Dialogue α}

/-- A batch is answered if its first item is and then the others are. -/
theorem run_mapM_cons_eq_ok {item : ι} {rest : List ι} {s : σ} {as : List α} :
    (((item :: rest).mapM f).run exchange s).outcome = .ok as ↔
      ∃ a as', ((f item).run exchange s).outcome = .ok a ∧
        ((rest.mapM f).run exchange ((f item).run exchange s).state).outcome = .ok as' ∧
        a :: as' = as := by
  rw [mapM_cons_eq]
  cases hfirst : ((f item).run exchange s).outcome with
  | error e => simp [run_bind_of_error hfirst]
  | ok a => simp [run_bind_of_ok hfirst, run_bind_done, map_eq_ok]

/-- Every answer of a batch comes from a run for its item. -/
theorem forall₂_of_mapM {items : List ι} {s : σ} {as : List α}
    (h : ((items.mapM f).run exchange s).outcome = .ok as) :
    List.Forall₂ (fun item a => ∃ t, ((f item).run exchange t).outcome = .ok a) items as := by
  induction items generalizing s as with
  | nil =>
    cases h
    exact .nil
  | cons item rest ih =>
    obtain ⟨a, as, hfirst, hrest, rfl⟩ := run_mapM_cons_eq_ok.1 h
    exact .cons ⟨s, hfirst⟩ (ih hrest)

section Round

variable {method : Method} {params : ι → Json} {shape : Shape ρ} {make : ι → ρ → α}
  (hf : ∀ item, f item = (fetch method (params item) shape).bind fun r => .done (make item r))

include hf

/-- A round of requests all of whose replies are read has their answers, in order. -/
theorem run_mapM_of_replies {items : List ι} {s : σ} {rs : List ρ}
    (h : List.Forall₂ shape.ReadsReply
      (exchange.replies (items.map fun item => (method, params item)) s) rs) :
    (items.mapM f).run exchange s =
      ⟨.ok (items.zipWith make rs), items.map fun item => (method, params item),
        exchange.after (items.map fun item => (method, params item)) s⟩ := by
  induction items generalizing s rs with
  | nil => rfl
  | cons item rest ih =>
    cases h with
    | @cons _ r _ rs hfirst hrest =>
      obtain ⟨hcalls, hstate, hok⟩ :=
        run_fetch_map_eq_ok exchange method (params item) shape (make item) s
      rw [← hf] at hcalls hstate hok
      rw [mapM_cons_eq, run_bind_of_ok ((hok _).2 ⟨r, hfirst, rfl⟩), run_bind_done, hcalls, hstate,
        ih hrest]
      rfl

/-- A round of requests has answers only if all of its replies are read. -/
theorem exists_replies_of_mapM {items : List ι} {s : σ} {as : List α}
    (h : ((items.mapM f).run exchange s).outcome = .ok as) :
    ∃ rs, List.Forall₂ shape.ReadsReply
      (exchange.replies (items.map fun item => (method, params item)) s) rs := by
  induction items generalizing s as with
  | nil => exact ⟨[], .nil⟩
  | cons item rest ih =>
    obtain ⟨-, hstate, hok⟩ := run_fetch_map_eq_ok exchange method (params item) shape (make item) s
    rw [← hf] at hstate hok
    obtain ⟨a, as, hfirst, hrest, rfl⟩ := run_mapM_cons_eq_ok.1 h
    obtain ⟨r, hr, -⟩ := (hok a).1 hfirst
    rw [hstate] at hrest
    obtain ⟨rs, hrs⟩ := ih hrest
    exact ⟨r :: rs, .cons hr hrs⟩

end Round

end Dialogue

/-- A reply with nodes, and another one with its list of nodes changed. -/
inductive QueryResult.ReplyVaried :
    Except ClientError Response → Except ClientError Response → Prop
  | result {value value' : Json} (h : Varied value value') :
      ReplyVaried (.ok (.result value)) (.ok (.result value'))

/-- Replies that were changed are still read, with the same page types. -/
theorem QueryResult.exists_answers_of_varied
    {replies replies' : List (Except ClientError Response)} {answers : List QueryResult}
    (varied : List.Forall₂ ReplyVaried replies replies')
    (listed : List.Forall₂ shape.ReadsReply replies answers) :
    ∃ answers', List.Forall₂ shape.ReadsReply replies' answers' ∧
      answers'.map types = answers.map types := by
  induction varied generalizing answers with
  | nil =>
    cases listed
    exact ⟨[], .nil, rfl⟩
  | cons hfirst _ ih =>
    obtain ⟨hvaried⟩ := hfirst
    cases listed with
    | @cons _ answer _ answers hread hrest =>
      obtain ⟨_, hreply, hread⟩ := hread
      cases hreply
      obtain ⟨answer', hread', htypes⟩ := hvaried.exists_decode hread
      obtain ⟨answers', hrest', hall⟩ := ih hrest
      refine ⟨answer' :: answers', .cons ⟨_, rfl, hread'⟩ hrest', ?_⟩
      rw [List.map_cons, List.map_cons, htypes, hall]

namespace Client

variable {exchange : Exchange σ} {addresses : List String} {limit : UInt32} {s : σ}
  {domains : List Domain} {infos : List MapInfo} {answers : List QueryResult}

def mapCall (domain : Domain) : Call := (.map, Params.map domain {} none)

def nodesCall (limit : UInt32) (domain : Domain) : Call :=
  (.query, .object [("domain", domain.json), ("limit", .nat limit.toNat)])

/-- What the replies to a comparison come to: the addresses stand for domains, every site is mapped,
and then the nodes of every site are read. -/
structure Compared (exchange : Exchange σ) (addresses : List String) (limit : UInt32) (s : σ)
    (domains : List Domain) (infos : List MapInfo) (answers : List QueryResult) : Prop where
  parsed : addresses.map Domain.parse = domains.map .ok
  mapped : List.Forall₂ MapInfo.shape.ReadsReply (exchange.replies (domains.map mapCall) s) infos
  listed : List.Forall₂ QueryResult.shape.ReadsReply
    (exchange.replies (domains.map (nodesCall limit)) (exchange.after (domains.map mapCall) s))
    answers

/-- Mapping the site of an address that is accepted. -/
theorem mapMany_of_parsed (parsed : addresses.map Domain.parse = domains.map .ok) :
    mapMany addresses {} = domains.mapM fun domain =>
      (Dialogue.fetch .map (Params.map domain {} none) MapInfo.shape).bind fun info =>
        .done ⟨domain, info⟩ := by
  rw [mapMany]
  induction addresses generalizing domains with
  | nil =>
    obtain rfl := List.map_eq_nil_iff.1 parsed.symm
    rfl
  | cons address rest ih =>
    cases domains with
    | nil => cases parsed
    | cons domain domains =>
      obtain ⟨haddress, hrest⟩ := List.cons.inj parsed
      rw [Dialogue.mapM_cons_eq, Dialogue.mapM_cons_eq, ih hrest, map, haddress]
      rfl

theorem parsed_of_mapMany {sites : List Site}
    (h : ((mapMany addresses {}).run exchange s).outcome = .ok sites) :
    addresses.map Domain.parse = (sites.map Site.domain).map .ok := by
  have hsites := Dialogue.forall₂_of_mapM h
  clear h
  induction hsites with
  | nil => rfl
  | cons hsite _ ih =>
    obtain ⟨t, hsite⟩ := hsite
    rw [List.map_cons, List.map_cons, List.map_cons, ih, domain_of_map hsite]

/-- A listing is read from one request. -/
theorem listing_eq (limit : UInt32) (site : Site) :
    listing limit site =
      (Dialogue.fetch .query (nodesCall limit site.domain).2 QueryResult.shape).bind fun answer =>
        .done (site.domain.text, answer.types) := by
  rw [listing, Site.filter, Params.query_limit]
  change (Site.find _).bind _ = _
  rw [Site.find, Dialogue.bind_assoc]
  rfl

theorem compare_eq (addresses : List String) (limit : UInt32) :
    compare addresses limit = (mapMany addresses {}).bind fun sites =>
      (sites.mapM (listing limit)).bind fun listings => .done (Listing.compare listings) := rfl

/-- The first round. -/
theorem run_mapMany (parsed : addresses.map Domain.parse = domains.map .ok)
    (mapped : List.Forall₂ MapInfo.shape.ReadsReply (exchange.replies (domains.map mapCall) s)
      infos) :
    (mapMany addresses {}).run exchange s =
      ⟨.ok (domains.zipWith Site.mk infos), domains.map mapCall,
        exchange.after (domains.map mapCall) s⟩ := by
  rw [mapMany_of_parsed parsed]
  exact Dialogue.run_mapM_of_replies (fun _ => rfl) mapped

theorem map_nodesCall (limit : UInt32) (sites : List Site) :
    (sites.map fun site => (Method.query, (nodesCall limit site.domain).2)) =
      (sites.map Site.domain).map (nodesCall limit) := by
  rw [List.map_map]
  rfl

/-- The second round. -/
theorem run_listings {sites : List Site}
    (listed : List.Forall₂ QueryResult.shape.ReadsReply
      (exchange.replies ((sites.map Site.domain).map (nodesCall limit)) s) answers) :
    (sites.mapM (listing limit)).run exchange s =
      ⟨.ok (((sites.map Site.domain).map Domain.text).zip (answers.map QueryResult.types)),
        (sites.map Site.domain).map (nodesCall limit),
        exchange.after ((sites.map Site.domain).map (nodesCall limit)) s⟩ := by
  rw [← map_nodesCall] at listed ⊢
  rw [Dialogue.run_mapM_of_replies (listing_eq limit) listed, List.zip, List.map_map,
    List.zipWith_map]
  rfl

/-- The sites that are mapped are those of the domains, in order. -/
theorem map_domain_zipWith (mapped : List.Forall₂ MapInfo.shape.ReadsReply
    (exchange.replies (domains.map mapCall) s) infos) :
    (domains.zipWith Site.mk infos).map Site.domain = domains := by
  have hlength : domains.length = infos.length := by
    simpa [Exchange.length_replies] using mapped.length_eq
  rw [← List.map_uncurry_zip_eq_zipWith, List.map_map]
  exact List.map_fst_zip hlength.le

namespace Compared

/-- Both rounds are made, and each list of nodes counts for the domain at its place. -/
theorem run_eq (h : Compared exchange addresses limit s domains infos answers) :
    (compare addresses limit).run exchange s =
      ⟨.ok (Listing.compare ((domains.map Domain.text).zip (answers.map QueryResult.types))),
        domains.map mapCall ++ domains.map (nodesCall limit),
        exchange.after (domains.map (nodesCall limit))
          (exchange.after (domains.map mapCall) s)⟩ := by
  have hmapped := run_mapMany h.parsed h.mapped
  have hsites := map_domain_zipWith h.mapped
  -- the second round is about the sites of the first one, and takes only the domains from them
  generalize domains.zipWith Site.mk infos = sites at hmapped hsites
  subst hsites
  have houtcome := congrArg Run.outcome hmapped
  rw [compare_eq, Dialogue.run_bind_of_ok houtcome, Dialogue.run_bind_done, hmapped,
    run_listings h.listed]
  rfl

/-- A comparison has an answer only if all of its replies are read. -/
theorem exists_of_outcome {c : CompareResult}
    (h : ((compare addresses limit).run exchange s).outcome = .ok c) :
    ∃ domains infos answers, Compared exchange addresses limit s domains infos answers := by
  rw [compare_eq] at h
  cases hsites : ((mapMany addresses {}).run exchange s).outcome with
  | error e =>
    rw [Dialogue.run_bind_of_error hsites] at h
    cases h
  | ok sites =>
    rw [Dialogue.run_bind_of_ok hsites, Dialogue.run_bind_done] at h
    obtain ⟨listings, hlistings, -⟩ := map_eq_ok.1 h
    have parsed := parsed_of_mapMany hsites
    have hround := hsites
    rw [mapMany_of_parsed parsed] at hround
    obtain ⟨infos, mapped⟩ := Dialogue.exists_replies_of_mapM (fun _ => rfl) hround
    obtain ⟨answers, listed⟩ := Dialogue.exists_replies_of_mapM (listing_eq limit) hlistings
    rw [run_mapMany parsed mapped, map_nodesCall] at listed
    exact ⟨sites.map Site.domain, infos, answers, parsed, mapped, listed⟩

/-- Through an exchange with the same nodes in another form a comparison has the same outcome. -/
theorem outcome_of_varied {τ : Type} {other : Exchange τ} {t : τ} {infos' : List MapInfo}
    (h : Compared exchange addresses limit s domains infos answers)
    (mapped : List.Forall₂ MapInfo.shape.ReadsReply (other.replies (domains.map mapCall) t) infos')
    (varied : List.Forall₂ QueryResult.ReplyVaried
      (exchange.replies (domains.map (nodesCall limit)) (exchange.after (domains.map mapCall) s))
      (other.replies (domains.map (nodesCall limit)) (other.after (domains.map mapCall) t))) :
    ((compare addresses limit).run other t).outcome =
      ((compare addresses limit).run exchange s).outcome := by
  obtain ⟨answers', listed, htypes⟩ := QueryResult.exists_answers_of_varied varied h.listed
  have h' : Compared other addresses limit t domains infos' answers' := ⟨h.parsed, mapped, listed⟩
  rw [h.run_eq, h'.run_eq, htypes]

end Compared

/-- Whatever the replies, a comparison is two batches, each of them fail-fast, and the second one is
begun only if the first one is answered. -/
theorem failFast_compare (exchange : Exchange σ) (addresses : List String) (limit : UInt32) (s : σ) :
    let r := (compare addresses limit).run exchange s
    ∃ mapping : Run σ (List Site),
      Run.FailFast s
        (Dialogue.runEach exchange (fun address => map address {} none) addresses s) mapping ∧
      match mapping.outcome with
      | .error e => r = ⟨.error e, mapping.calls, mapping.state⟩
      | .ok sites => ∃ listings : Run σ (List Listing),
        Run.FailFast mapping.state
          (Dialogue.runEach exchange (listing limit) sites mapping.state) listings ∧
        r = ⟨listings.outcome.map Listing.compare, mapping.calls ++ listings.calls,
          listings.state⟩ := by
  intro r
  refine ⟨(mapMany addresses {}).run exchange s, Dialogue.failFast_mapM exchange _ addresses s, ?_⟩
  cases hsites : ((mapMany addresses {}).run exchange s).outcome with
  | error e => exact Dialogue.run_bind_of_error hsites _
  | ok sites =>
    refine ⟨_, Dialogue.failFast_mapM exchange (listing limit) sites _, ?_⟩
    have hrun := Dialogue.run_bind_of_ok hsites fun sites =>
      (sites.mapM (listing limit)).bind fun listings => .done (Listing.compare listings)
    rwa [Dialogue.run_bind_done] at hrun

end Client

/-- A comparison from end to end. If it succeeds, all addresses stand for domains and all replies are
read. Then it made a request to map each domain and one for the first nodes of each domain, all in
order, and compares the domains by the page types of the nodes; other replies with the same nodes,
reordered, repeated or with other values in their other fields, make no difference. At the first
failure it ends, with that error and without another request. -/
theorem compared_end_to_end {σ : Type} (exchange : Exchange σ) (addresses : List String)
    (limit : UInt32) (s : σ) :
    let r := (Client.compare addresses limit).run exchange s
    (∀ c, r.outcome = .ok c → ∃ domains infos answers,
      Client.Compared exchange addresses limit s domains infos answers) ∧
    (∀ domains infos answers, Client.Compared exchange addresses limit s domains infos answers →
      r.outcome = .ok
        (Listing.compare ((domains.map Domain.text).zip (answers.map QueryResult.types))) ∧
      r.calls = domains.map Client.mapCall ++ domains.map (Client.nodesCall limit) ∧
      ∀ (τ : Type) (other : Exchange τ) (t : τ) (infos' : List MapInfo),
        List.Forall₂ MapInfo.shape.ReadsReply (other.replies (domains.map Client.mapCall) t)
          infos' →
        List.Forall₂ QueryResult.ReplyVaried
          (exchange.replies (domains.map (Client.nodesCall limit))
            (exchange.after (domains.map Client.mapCall) s))
          (other.replies (domains.map (Client.nodesCall limit))
            (other.after (domains.map Client.mapCall) t)) →
        ((Client.compare addresses limit).run other t).outcome = r.outcome) ∧
    ∃ mapping : Run σ (List Site),
      Run.FailFast s
        (Dialogue.runEach exchange (fun address => Client.map address {} none) addresses s)
        mapping ∧
      match mapping.outcome with
      | .error e => r = ⟨.error e, mapping.calls, mapping.state⟩
      | .ok sites => ∃ listings : Run σ (List Listing),
        Run.FailFast mapping.state
          (Dialogue.runEach exchange (Client.listing limit) sites mapping.state) listings ∧
        r = ⟨listings.outcome.map Listing.compare, mapping.calls ++ listings.calls,
          listings.state⟩ := by
  intro r
  refine ⟨fun c => Client.Compared.exists_of_outcome, fun domains infos answers h => ⟨?_, ?_, ?_⟩,
    Client.failFast_compare exchange addresses limit s⟩
  · exact congrArg Run.outcome h.run_eq
  · exact congrArg Run.calls h.run_eq
  · intro τ other t infos' mapped varied
    exact h.outcome_of_varied mapped varied

/-- Two sites, the nodes of which come once as they are listed first, and once in another order, with
one repeated and one at another address. -/
theorem compared_end_to_end_varied :
    let node (index : Int) (url : String) (type : Int) : Json :=
      .object [("index", .int index), ("page_type", .int type), ("url", .text url)]
    let nodes (items : List Json) : Except ClientError Response :=
      .ok (.result (.object [("matches", .list items), ("total", .int 9)]))
    let mapped : Except ClientError Response := .ok (.result .null)
    let script := [mapped, mapped, nodes [node 0 "a" 4, node 1 "b" 1], nodes [node 0 "" 4]]
    let other := [mapped, mapped, nodes [node 1 "b" 1, node 0 "z" 4, node 1 "b" 1],
      nodes [node 0 "" 4]]
    let comparison := Client.compare ["https://a.com/x", "b.com"] 5
    (comparison.run .scripted script).outcome =
        .ok (Listing.compare [("a.com", .ofList [4, 1]), ("b.com", .ofList [4])]) ∧
      (comparison.run .scripted other).outcome = (comparison.run .scripted script).outcome := by
  intro node nodes mapped script other comparison
  obtain ⟨-, hcompared, -⟩ :=
    compared_end_to_end .scripted ["https://a.com/x", "b.com"] 5 script
  let answers : List QueryResult :=
    [⟨[⟨0, "a", 4, 0.0, .empty, none⟩, ⟨1, "b", 1, 0.0, .empty, none⟩]⟩,
      ⟨[⟨0, "", 4, 0.0, .empty, none⟩]⟩]
  let infos : List MapInfo := [MapInfo.shape.blank, MapInfo.shape.blank]
  have hmapped : List.Forall₂ MapInfo.shape.ReadsReply [mapped, mapped] infos :=
    .cons ⟨.null, rfl, rfl⟩ (.cons ⟨.null, rfl, rfl⟩ .nil)
  have hlisted : List.Forall₂ QueryResult.shape.ReadsReply
      [nodes [node 0 "a" 4, node 1 "b" 1], nodes [node 0 "" 4]] answers :=
    .cons ⟨_, rfl, rfl⟩ (.cons ⟨_, rfl, rfl⟩ .nil)
  have hread : Client.Compared .scripted ["https://a.com/x", "b.com"] 5 script
      [⟨"a.com"⟩, ⟨"b.com"⟩] infos answers := ⟨rfl, hmapped, hlisted⟩
  have hurl : _ ∈ NodeMatch.shape.fields := .tail _ (.head _)
  have hmoved : NodeMatch.Variation
      ([] ++ .object ([("index", .int 0), ("page_type", .int 4)] ++ [("url", .text "a")]) ::
        [node 1 "b" 1])
      ([] ++ .object ([("index", .int 0), ("page_type", .int 4)] ++ [("url", .text "z")]) ::
        [node 1 "b" 1]) := .member hurl (by decide) rfl rfl
  have hordered : NodeMatch.Variation [node 0 "z" 4, node 1 "b" 1]
      [node 1 "b" 1, node 0 "z" 4] := .reordered (.swap ..)
  have hrepeated : NodeMatch.Variation ([node 1 "b" 1, node 0 "z" 4] ++ [])
      ([node 1 "b" 1, node 0 "z" 4] ++ [node 1 "b" 1]) := .repeated (.head _)
  have hchanges := ((Relation.EqvGen.rel _ _ hmoved).trans _ _ _ (.rel _ _ hordered)).trans _ _ _
    (.rel _ _ hrepeated)
  have hnodes : QueryResult.Varied
      (.object ([] ++ ("matches", .list [node 0 "a" 4, node 1 "b" 1]) :: [("total", .int 9)]))
      (.object ([] ++ ("matches", .list [node 1 "b" 1, node 0 "z" 4, node 1 "b" 1]) ::
        [("total", .int 9)])) := .object hchanges
  obtain ⟨houtcome, -, hvaried⟩ := hcompared _ _ _ hread
  refine ⟨houtcome, hvaried _ .scripted other infos hmapped ?_⟩
  exact .cons (.result hnodes) (.cons (.result (.same _)) .nil)

end SiteAtlas
