import SiteAtlas.Proofs.Codec.ValueObjects
import SiteAtlas.Proofs.Site.Query

/-!
# Arguments as parameters

The parameters of an errand are its arguments and nothing else: one member for each that must be
given and one for each optional one that is given, with a value that is read as the argument. An
errand with arguments that are not acceptable has no parameters.
-/
namespace SiteAtlas

open Codec (readsBack_double_iff readsBack_list readsBack_word)

def Minimize.key : Codec.Key Minimize := .named [.hops, .weight] name

theorem Minimize.lawful_key : key.Lawful :=
  Codec.Key.lawful_named fun m => by cases m <;> decide

/-- An argument: the name of its member, its JSON form, and its value. -/
structure Argument where
  key : String
  {α : Type}
  codec : Codec α
  value : α

namespace Argument

def member (a : Argument) : String × Json := (a.key, a.codec.encode a.value)

@[simp] def ReadsBack (a : Argument) : Prop := a.codec.ReadsBack a.value

end Argument

/-- Parameters that consist of arguments: the members are those of the arguments, sorted by key, and
each argument is read as it is. -/
structure Carries (params : Json) (arguments : List Argument) : Prop where
  members : ∃ members, params = .object members ∧ Ascending members ∧
    members.Perm (arguments.map Argument.member)
  readsBack : ∀ a ∈ arguments, a.ReadsBack

theorem carries_ofMembers {arguments : List Argument}
    (distinct : (arguments.map Argument.member).Pairwise fun m n => m.1 ≠ n.1)
    (h : ∀ a ∈ arguments, a.ReadsBack) :
    Carries (.ofMembers (arguments.map Argument.member)) arguments :=
  ⟨⟨_, rfl, ascending_sortEntries _, perm_sortEntries distinct⟩, h⟩

/-- What a service is asked for, with all arguments. -/
inductive Errand where
  | map (domain : Domain) (options : MapOptions) (session : Option Session)
  | nearest (domain : Domain) (goal : List Float) (k : UInt32)
  | pathfind (domain : Domain) (source target : UInt32) (options : PathOptions)
  | refresh (domain : Domain) (selector : RefreshSelector)
  | act (domain : Domain) (node : UInt32) (opcode : Opcode) (params : Option Json)
    (session : Option Session)
  | actUrl (url : String) (opcode : Opcode) (params : Option Json) (session : Option Session)
  | perceive (url : String) (includeContent : Bool)
  | watch (domain : Domain) (spec : WatchSpec)
  | auth (domain : Domain) (credentials : Credentials)

namespace Errand

def params : Errand → Except Rejection Json
  | .map domain options session => .ok (Params.map domain options session)
  | .nearest domain goal k => Params.nearest domain goal k
  | .pathfind domain source target options => .ok (Params.pathfind domain source target options)
  | .refresh domain selector => Params.refresh domain selector
  | .act domain node opcode params session => .ok (Params.act domain node opcode params session)
  | .actUrl url opcode params session => Params.actUrl url opcode params session
  | .perceive url includeContent => Params.perceive url includeContent
  | .watch domain spec => Params.watch domain spec
  | .auth domain credentials => .ok (Params.auth domain credentials)

def ofCredentials : Credentials → List Argument
  | .password username password =>
    [⟨"username", Codec.text, username⟩, ⟨"password", Codec.text, password⟩]
  | .oauth provider => [⟨"provider", Codec.text, provider⟩]
  | .apiKey key header => [⟨"key", Codec.text, key⟩, ⟨"header_name", Codec.text, header⟩]

/-- The arguments that every errand of a kind has. The domain of an address is parsed from it. -/
def required : Errand → List Argument
  | .map domain options _ => [
    ⟨"domain", Domain.codec, domain⟩,
    ⟨"max_nodes", Codec.word32, options.maxNodes⟩,
    ⟨"max_render", Codec.word32, options.maxRender⟩,
    ⟨"max_time_ms", Codec.word64, options.maxTime⟩,
    ⟨"respect_robots", Codec.bool, options.respectRobots⟩]
  | .nearest domain goal k => [
    ⟨"domain", Domain.codec, domain⟩,
    ⟨"limit", Codec.word32, k⟩,
    ⟨"mode", Codec.text, "nearest"⟩,
    ⟨"goal_vector", .list Codec.double, goal⟩]
  | .pathfind domain source target options => [
    ⟨"domain", Domain.codec, domain⟩,
    ⟨"from", Codec.word32, source⟩,
    ⟨"to", Codec.word32, target⟩,
    ⟨"avoid_flags", .list Codec.text, options.avoid⟩,
    ⟨"minimize", .word Minimize.key, options.minimize⟩]
  | .refresh domain _ => [⟨"domain", Domain.codec, domain⟩]
  | .act domain node opcode _ _ => [
    ⟨"domain", Domain.codec, domain⟩,
    ⟨"node", Codec.word32, node⟩,
    ⟨"opcode", Opcode.codec, opcode⟩]
  | .actUrl url opcode _ _ =>
    match Domain.parse url with
    | .error _ => []
    | .ok domain => [
      ⟨"domain", Domain.codec, domain⟩,
      ⟨"node", Codec.word32, 0⟩,
      ⟨"opcode", Opcode.codec, opcode⟩,
      ⟨"url", Codec.text, url⟩]
  | .perceive url includeContent => [
    ⟨"url", Codec.text, url⟩,
    ⟨"include_content", Codec.bool, includeContent⟩]
  | .watch domain spec => [
    ⟨"domain", Domain.codec, domain⟩,
    ⟨"interval_ms", Codec.word64, spec.interval⟩]
  | .auth domain credentials =>
    [⟨"domain", Domain.codec, domain⟩, ⟨"auth_type", Codec.text, credentials.authType⟩] ++
      ofCredentials credentials

def optional : Errand → List (Option Argument)
  | .map _ _ session => [session.map fun s => ⟨"session_id", Codec.text, s.id⟩]
  | .refresh _ selector => [
    selector.nodes.map fun nodes => ⟨"nodes", .list Codec.word32, nodes⟩,
    selector.cluster.map fun cluster => ⟨"cluster", Codec.word32, cluster⟩,
    selector.staleThreshold.map fun x => ⟨"stale_threshold", Codec.double, x⟩]
  | .act _ _ _ params session | .actUrl _ _ params session => [
    params.map fun params => ⟨"params", Codec.any, params⟩,
    session.map fun s => ⟨"session_id", Codec.text, s.id⟩]
  | .watch _ spec => [
    spec.nodes.map fun nodes => ⟨"nodes", .list Codec.word32, nodes⟩,
    spec.cluster.map fun cluster => ⟨"cluster", Codec.word32, cluster⟩,
    spec.features.map fun features => ⟨"features", .list Codec.word8, features⟩]
  | .nearest .. | .pathfind .. | .perceive .. | .auth .. => []

def arguments (e : Errand) : List Argument := e.required ++ e.optional.flatMap Option.toList

/-- What is asked of the arguments. -/
def Acceptable : Errand → Prop
  | .nearest _ goal _ => goal.length = 128 ∧ ∀ x ∈ goal, Decimal.isFinite x = true
  | .refresh _ selector => ∀ x ∈ selector.staleThreshold, Decimal.isFinite x = true
  | .watch _ spec => ∀ features ∈ spec.features, ∀ d ∈ features, d.toNat < 128
  | .perceive url _ => Text.trim url.toList ≠ []
  | .actUrl url _ _ _ => ∃ domain, Domain.parse url = .ok domain
  | .map .. | .pathfind .. | .act .. | .auth .. => True

/-- What is wrong with the arguments, in the order of the checks. -/
def faults : Errand → List Rejection
  | .nearest _ goal _ =>
    (if goal.length = 128 then [] else [.goalLength goal.length]) ++
      goal.flatMap (finiteFaults .goalEntry)
  | .refresh _ selector => selector.staleThreshold.elim [] (finiteFaults .staleThreshold)
  | .watch _ spec => spec.features.elim [] fun features => features.flatMap dimensionFaults
  | .perceive url _ => if Text.trim url.toList = [] then [.emptyUrl] else []
  | .actUrl url _ _ _ =>
    match Domain.parse url with
    | .error why => [why]
    | .ok _ => []
  | .map .. | .pathfind .. | .act .. | .auth .. => []

theorem faults_eq_nil {e : Errand} : e.faults = [] ↔ e.Acceptable := by
  cases e with
  | map | pathfind | act | auth => simp [faults, Acceptable]
  | nearest domain goal k => simp [faults, Acceptable, finiteFaults_eq_nil]
  | refresh domain selector =>
    rw [faults, Acceptable]
    cases selector.staleThreshold <;> simp [finiteFaults_eq_nil]
  | actUrl url opcode params session =>
    rw [faults, Acceptable]
    cases Domain.parse url <;> simp
  | perceive url includeContent => simp [faults, Acceptable]
  | watch domain spec =>
    rw [faults, Acceptable]
    cases spec.features <;> simp [dimensionFaults_eq_nil]

/-- No two arguments have the same name. -/
theorem nodup_arguments (e : Errand) : (e.arguments.map Argument.key).Nodup := by
  cases e with
  | map domain options session => cases session <;> simp [arguments, required, optional]
  | nearest | pathfind | perceive => simp [arguments, required, optional]
  | refresh domain selector =>
    obtain ⟨nodes, cluster, threshold⟩ := selector
    cases nodes <;> cases cluster <;> cases threshold <;> simp [arguments, required, optional]
  | act domain node opcode params session =>
    cases params <;> cases session <;> simp [arguments, required, optional]
  | actUrl url opcode params session =>
    rw [arguments, required]
    cases Domain.parse url <;> cases params <;> cases session <;> simp [optional]
  | watch domain spec =>
    obtain ⟨nodes, cluster, features, interval⟩ := spec
    cases nodes <;> cases cluster <;> cases features <;> simp [arguments, required, optional]
  | auth domain credentials =>
    cases credentials <;> simp [arguments, required, optional, ofCredentials]

theorem pairwise_member (e : Errand) :
    (e.arguments.map Argument.member).Pairwise fun m n => m.1 ≠ n.1 :=
  List.pairwise_map.2 (List.pairwise_map.1 e.nodup_arguments)

/-- All checks of the arguments, and the parameters if they are passed. -/
theorem params_eq (e : Errand) :
    e.params = unlessFault e.faults (.ofMembers (e.arguments.map Argument.member)) := by
  cases e with
  | map domain options session => cases session <;> rfl
  | nearest domain goal k =>
    rw [params, Params.nearest, faults]
    by_cases hlength : goal.length = 128
    · rw [if_neg (show ¬ goal.length ≠ featureDimensions from fun h => h hlength), if_pos hlength]
      refine (map_eq_unlessFault (forM_eq_unlessFault fun x _ => checkFinite_eq .goalEntry x)).trans
        (unlessFault_congr fun h => ?_)
      have hgoal : (Codec.list Codec.double).encode goal = .list (goal.map .float) := by
        refine congrArg Json.list (List.map_congr_left fun x hx => ?_)
        exact encode_double (List.flatMap_eq_nil_iff.1 h x hx)
      change _ = Json.ofMembers [("domain", Domain.codec.encode domain),
        ("limit", Codec.word32.encode k), ("mode", Codec.text.encode "nearest"),
        ("goal_vector", (Codec.list Codec.double).encode goal)]
      rw [hgoal]
      rfl
    · rw [if_pos (show goal.length ≠ featureDimensions from hlength), if_neg hlength]
      rfl
  | pathfind domain source target options => rfl
  | refresh domain selector =>
    obtain ⟨nodes, cluster, threshold⟩ := selector
    cases threshold with
    | none => cases nodes <;> cases cluster <;> rfl
    | some x =>
      refine (map_eq_unlessFault (checkFinite_eq .staleThreshold x)).trans
        (unlessFault_congr fun h => ?_)
      have hmember : optionalMember "stale_threshold" Json.float (some x) =
          [("stale_threshold", Codec.double.encode x)] := by rw [encode_double h, optionalMember]
      simp only [hmember]
      cases nodes <;> cases cluster <;> rfl
  | act domain node opcode params session => cases params <;> cases session <;> rfl
  | actUrl url opcode options session =>
    have hdistinct := pairwise_member (.actUrl url opcode options session)
    rw [params, Params.actUrl, faults]
    rw [arguments, required] at hdistinct ⊢
    cases hdomain : Domain.parse url with
    | error why => rfl
    | ok domain =>
      -- The address is the last argument here, but it is always given, and its place is sorted out.
      simp only [hdomain] at hdistinct ⊢
      refine congrArg Except.ok (Json.ofMembers_perm hdistinct ?_).symm
      have hurl (mid : List (String × Json)) :
          ([("url", Json.text url)] ++ mid).Perm (mid ++ [("url", .text url)]) :=
        List.perm_append_comm
      cases options <;> cases session <;>
        exact (hurl _).append_left (Params.actMembers domain 0 opcode none none)
  | perceive url includeContent =>
    rw [params, Params.perceive, faults]
    by_cases h : Text.trim url.toList = []
    · simp [h]
    · simp only [h, List.isEmpty_iff, if_false]
      rfl
  | watch domain spec =>
    obtain ⟨nodes, cluster, features, interval⟩ := spec
    cases features with
    | none => cases nodes <;> cases cluster <;> rfl
    | some features =>
      refine (map_eq_unlessFault
        (forM_eq_unlessFault fun d _ => checkDimension_eq d)).trans ?_
      cases nodes <;> cases cluster <;> rfl
  | auth domain credentials => cases credentials <;> rfl

theorem readsBack_arguments {e : Errand} (h : e.Acceptable) : ∀ a ∈ e.arguments, a.ReadsBack := by
  cases e with
  | map | perceive => simp [arguments, required, optional]
  | nearest domain goal k =>
    have hgoal : (Codec.list Codec.double).ReadsBack goal :=
      readsBack_list fun x hx => readsBack_double_iff.2 (h.2 x hx)
    simp [arguments, required, optional, hgoal]
  | pathfind => simp [arguments, required, optional, readsBack_word Minimize.lawful_key]
  | refresh domain selector =>
    have hthreshold : ∀ x, selector.staleThreshold = some x → Decimal.isFinite x = true := h
    simpa [arguments, required, optional, or_imp, forall_and] using hthreshold
  | act => simp [arguments, required, optional, Opcode.readsBack, or_imp, forall_and]
  | actUrl url =>
    rw [arguments, required]
    cases Domain.parse url <;> simp [optional, Opcode.readsBack, or_imp, forall_and]
  | watch => simp [arguments, required, optional, or_imp, forall_and]
  | auth domain credentials =>
    cases credentials <;> simp [arguments, required, optional, ofCredentials]

/-- The parameters of an errand carry the arguments that must be given, those that may be given and
are, and nothing else, each as it is. There are parameters if and only if the arguments are
acceptable; otherwise the first fault is reported. -/
theorem params_carry (e : Errand) :
    ((∃ params, e.params = .ok params) ↔ e.Acceptable) ∧
    (∀ params, e.params = .ok params → Carries params e.arguments) ∧
    ∀ why, e.params = .error why ↔
      e.faults.head? = some why ∧ (ClientError.rejected why).kind = .invalidInput := by
  rw [e.params_eq]
  refine ⟨?_, fun params h => ?_, fun why => ?_⟩
  · rw [exists_unlessFault_eq_ok, faults_eq_nil]
  · rw [unlessFault_eq_ok, faults_eq_nil] at h
    obtain ⟨hacceptable, rfl⟩ := h
    exact carries_ofMembers e.pairwise_member (readsBack_arguments hacceptable)
  · rw [unlessFault_eq_error]
    exact ⟨fun h => ⟨h, rfl⟩, And.left⟩

end Errand

end SiteAtlas
