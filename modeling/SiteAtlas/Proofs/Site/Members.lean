import SiteAtlas.Proofs.Accepted
import SiteAtlas.Proofs.Json.Members
import SiteAtlas.Site.Params

/-!
# The domain in the parameters

The parameters of an operation on a site start with its domain, and no member behind it has the same
name. So the request names the domain, whatever else it holds.
-/
namespace SiteAtlas

/-- No member has this name. -/
def Lacks (key : String) (members : List (String × Json)) : Prop := ∀ e ∈ members, e.1 ≠ key

@[simp] theorem lacks_nil (key : String) : Lacks key [] := by simp [Lacks]

@[simp] theorem lacks_cons {key name : String} {value : Json} {members : List (String × Json)} :
    Lacks key ((name, value) :: members) ↔ name ≠ key ∧ Lacks key members := by
  simp [Lacks]

@[simp] theorem lacks_append {key : String} {front rest : List (String × Json)} :
    Lacks key (front ++ rest) ↔ Lacks key front ∧ Lacks key rest := by
  simp [Lacks, or_imp, forall_and]

theorem lacks_optionalMember {α : Type} {key name : String} (h : name ≠ key) (json : α → Json)
    (o : Option α) : Lacks key (optionalMember name json o) := by
  cases o <;> simp [optionalMember, h]

/-- The parameters name a domain. -/
def Domain.NamedIn (domain : Domain) (params : Json) : Prop :=
  params.member? "domain" = some domain.json

theorem Domain.namedIn_ofMembers (domain : Domain) {rest : List (String × Json)}
    (h : Lacks "domain" rest) : domain.NamedIn (.ofMembers (("domain", domain.json) :: rest)) :=
  Json.member?_ofMembers_cons domain.json h

namespace Query

theorem lacks_featuresMember {q : Query} {members : List (String × Json)}
    (h : q.featuresMember = .ok members) : Lacks "domain" members := by
  rw [featuresMember] at h
  split at h
  · cases h
    simp
  · obtain ⟨features, -, hmembers⟩ := bind_eq_ok.1 h
    cases hmembers
    simp

theorem lacks_flagsMember (q : Query) : Lacks "domain" q.flagsMember := by
  rw [flagsMember]
  split <;> simp

theorem lacks_sortMember {q : Query} {members : List (String × Json)}
    (h : q.sortMember = .ok members) : Lacks "domain" members := by
  rw [sortMember] at h
  split at h
  · cases h
    simp
  · obtain ⟨_, -, hmembers⟩ := bind_eq_ok.1 h
    cases hmembers
    simp

/-- The domain comes first in a query that is accepted, and only there. -/
theorem members_eq_cons {q : Query} {domain : Domain} {members : List (String × Json)}
    (h : q.members domain = .ok members) :
    ∃ rest, members = ("domain", domain.json) :: rest ∧ Lacks "domain" rest := by
  obtain ⟨features, hfeatures, h⟩ := bind_eq_ok.1 h
  obtain ⟨sort, hsort, h⟩ := bind_eq_ok.1 h
  cases h
  refine ⟨_, rfl, ?_⟩
  simp [lacks_featuresMember hfeatures, lacks_flagsMember q, lacks_sortMember hsort,
    lacks_optionalMember]

end Query

namespace Params

variable {domain : Domain} {params : Json}

theorem namedIn_query {q : Query} (h : query domain q = .ok params) : domain.NamedIn params := by
  obtain ⟨members, hmembers, h⟩ := bind_eq_ok.1 h
  cases h
  obtain ⟨rest, rfl, hrest⟩ := Query.members_eq_cons hmembers
  exact domain.namedIn_ofMembers hrest

theorem namedIn_nearest {goal : List Float} {k : UInt32} (h : nearest domain goal k = .ok params) :
    domain.NamedIn params := by
  rw [nearest] at h
  split at h
  · cases h
  · obtain ⟨_, -, h⟩ := bind_eq_ok.1 h
    obtain ⟨members, hmembers, h⟩ := bind_eq_ok.1 h
    cases h
    obtain ⟨rest, rfl, hrest⟩ := Query.members_eq_cons hmembers
    exact domain.namedIn_ofMembers (by simp [hrest])

theorem namedIn_pathfind (source target : UInt32) (options : PathOptions) :
    domain.NamedIn (pathfind domain source target options) :=
  domain.namedIn_ofMembers (by simp)

theorem namedIn_refresh {selector : RefreshSelector} (h : refresh domain selector = .ok params) :
    domain.NamedIn params := by
  rw [refresh] at h
  split at h
  · obtain ⟨_, -, h⟩ := bind_eq_ok.1 h
    cases h
    exact domain.namedIn_ofMembers (by simp [lacks_optionalMember])
  · cases h
    exact domain.namedIn_ofMembers (by simp [lacks_optionalMember])

theorem namedIn_act (node : UInt32) (opcode : Opcode) (json : Option Json)
    (session : Option Session) : domain.NamedIn (act domain node opcode json session) :=
  domain.namedIn_ofMembers (by simp [sessionMember, lacks_optionalMember])

theorem namedIn_watch {spec : WatchSpec} (h : watch domain spec = .ok params) :
    domain.NamedIn params := by
  rw [watch] at h
  split at h
  · obtain ⟨_, -, h⟩ := bind_eq_ok.1 h
    cases h
    exact domain.namedIn_ofMembers (by simp [lacks_optionalMember])
  · cases h
    exact domain.namedIn_ofMembers (by simp [lacks_optionalMember])

end Params

end SiteAtlas
