import SiteAtlas.Proofs.Client.Answers
import SiteAtlas.Proofs.Codec.Defaults
import SiteAtlas.Proofs.Json.Members

/-!
# Names of members in a status

An object that is read as a record has at most one member for each field. So a member may be called
by any other name of its field: no two members come to have the same name, and though the members are
visited in another order, each field gets the value that it got before. The names of a status reach no
further than the status itself; the pool in it has names of its own.
-/
namespace SiteAtlas

theorem Field.Gives.length_le_one {ρ : Type} {f : Field ρ} {js : List Json} {seen : Prop}
    {old new : f.α} (h : f.Gives js seen old new) : js.length ≤ 1 := by
  cases js with
  | nil => exact Nat.zero_le 1
  | cons j js => rw [h.eq_singleton List.mem_cons_self, List.length_singleton]

/-- A list with at most one value is not rearranged. -/
theorem Field.Gives.of_perm {ρ : Type} {f : Field ρ} {js ks : List Json} {seen : Prop}
    {old new : f.α} (h : f.Gives js seen old new) (hperm : js.Perm ks) :
    f.Gives ks seen old new := by
  have hlength := h.length_le_one
  match js with
  | [] => rwa [List.nil_perm.1 hperm]
  | [j] => rwa [← List.singleton_perm.1 hperm]
  | _ :: _ :: _ => simp at hlength

theorem Field.perm_valuesIn {ρ : Type} (f : Field ρ) {ms ns : List (String × Json)}
    (h : ms.Perm ns) : (f.valuesIn ms).Perm (f.valuesIn ns) :=
  (h.filter _).map _

namespace Shape

variable {ρ : Type} {s : Shape ρ}

/-- The same name, or another name of the same field. -/
def Alike (s : Shape ρ) (key other : String) : Prop :=
  key = other ∨ ∃ f ∈ s.fields, f.Known key ∧ f.Known other

theorem Alike.symm {key other : String} (h : s.Alike key other) : s.Alike other key :=
  h.imp Eq.symm fun ⟨f, hf, hkey, hother⟩ => ⟨f, hf, hother, hkey⟩

theorem Regular.eq_of_known (h : s.Regular) {f g : Field ρ} (hf : f ∈ s.fields)
    (hg : g ∈ s.fields) {key : String} (hfk : f.Known key) (hgk : g.Known key) : f = g := by
  have hfield := h.field?_eq_some_iff.2 ⟨hf, hfk⟩
  rw [h.field?_eq_some_iff.2 ⟨hg, hgk⟩] at hfield
  exact (Option.some.inj hfield).symm

theorem Regular.known_iff_of_alike (h : s.Regular) {key other : String} (halike : s.Alike key other)
    {f : Field ρ} (hf : f ∈ s.fields) : f.Known key ↔ f.Known other := by
  obtain rfl | ⟨g, hg, hkey, hother⟩ := halike
  · rfl
  · constructor
    · intro hknown
      rwa [h.eq_of_known hf hg hknown hkey]
    · intro hknown
      rwa [h.eq_of_known hf hg hknown hother]

theorem Regular.alike_trans (h : s.Regular) {a b c : String} (hab : s.Alike a b)
    (hbc : s.Alike b c) : s.Alike a c := by
  obtain rfl | ⟨f, hf, ha, hb⟩ := hab
  · exact hbc
  · exact .inr ⟨f, hf, ha, (h.known_iff_of_alike hbc hf).1 hb⟩

/-- An object in which two members have names of one field is not read. -/
theorem Regular.not_alike (h : s.Regular) {members : List (String × Json)} {r : ρ}
    (hread : s.decode (.object members) = .ok r) {m n : String × Json} (hm : m ∈ members)
    (hn : n ∈ members) (hne : m.1 ≠ n.1) : ¬s.Alike m.1 n.1 := by
  rintro (heq | ⟨f, hf, hmk, hnk⟩)
  · exact hne heq
  · have hone := (h.decode_object_eq_ok.1 hread f hf).length_le_one
    rw [Field.valuesIn, List.length_map] at hone
    have hmem {m : String × Json} (hm : m ∈ members) (hknown : f.Known m.1) :
        m ∈ members.filter fun m => f.Known m.1 :=
      List.mem_filter.2 ⟨hm, decide_eq_true hknown⟩
    generalize members.filter (fun m => f.Known m.1) = known at hone hmem
    obtain _ | ⟨k, _ | ⟨_, _⟩⟩ := known
    · cases hmem hm hmk
    · have hmk := List.mem_singleton.1 (hmem hm hmk)
      have hnk := List.mem_singleton.1 (hmem hn hnk)
      exact hne (by rw [hmk, hnk])
    · simp at hone

/-- An object with two names of one field is not read, in whatever order its members come. -/
theorem Regular.decode_ne_ok_of_alike (h : s.Regular) {members : List (String × Json)}
    {key other : String} (hkey : key ∈ members.map Prod.fst) (hother : other ∈ members.map Prod.fst)
    (hne : key ≠ other) (halike : s.Alike key other) (r : ρ) :
    s.decode (.ofMembers members) ≠ .ok r := by
  intro hread
  obtain ⟨m, hm, rfl⟩ := List.mem_map.1 hkey
  obtain ⟨n, hn, rfl⟩ := List.mem_map.1 hother
  obtain ⟨m', hm', hmkey⟩ := exists_mem_sortEntries hm
  obtain ⟨n', hn', hnkey⟩ := exists_mem_sortEntries hn
  rw [← hmkey, ← hnkey] at hne halike
  exact h.not_alike hread hm' hn' hne halike

theorem Regular.decode_perm (h : s.Regular) {ms ns : List (String × Json)} (hperm : ms.Perm ns)
    {r : ρ} (hread : s.decode (.object ms) = .ok r) : s.decode (.object ns) = .ok r := by
  rw [h.decode_object_eq_ok] at hread ⊢
  exact fun f hf => (hread f hf).of_perm (f.perm_valuesIn hperm)

def renamed (rename : String → String) (members : List (String × Json)) : List (String × Json) :=
  members.map fun m => (rename m.1, m.2)

theorem Regular.valuesIn_renamed (h : s.Regular) {rename : String → String}
    (halike : ∀ key, s.Alike key (rename key)) {f : Field ρ} (hf : f ∈ s.fields)
    (members : List (String × Json)) : f.valuesIn (renamed rename members) = f.valuesIn members := by
  induction members with
  | nil => rfl
  | cons m rest ih =>
    have hsame := h.known_iff_of_alike (halike m.1) hf
    by_cases hknown : f.Known m.1
    · rw [renamed, List.map_cons, Field.valuesIn_cons_of_known (hsame.1 hknown), ← renamed, ih,
        Field.valuesIn_cons_of_known hknown]
    · rw [renamed, List.map_cons, Field.valuesIn_cons_of_not_known (mt hsame.2 hknown), ← renamed,
        ih, Field.valuesIn_cons_of_not_known hknown]

/-- New names of an object that is read do not clash. -/
theorem Regular.pairwise_renamed (h : s.Regular) {rename : String → String}
    (halike : ∀ key, s.Alike key (rename key)) {members : List (String × Json)} {r : ρ}
    (hread : s.decode (.object members) = .ok r)
    (distinct : members.Pairwise fun m n => m.1 ≠ n.1) :
    (renamed rename members).Pairwise fun m n => m.1 ≠ n.1 := by
  refine List.pairwise_map.2 (distinct.imp_of_mem fun {m n} hm hn hne hclash => ?_)
  have hclash : rename m.1 = rename n.1 := hclash
  refine h.not_alike hread hm hn hne (h.alike_trans (halike m.1) ?_)
  rw [hclash]
  exact (halike n.1).symm

/-- Calling members by other names of their fields does not change what is read. -/
theorem Regular.decode_renamed (h : s.Regular) {rename : String → String}
    (halike : ∀ key, s.Alike key (rename key)) {members : List (String × Json)} {r : ρ}
    (distinct : members.Pairwise fun m n => m.1 ≠ n.1)
    (hread : s.decode (.ofMembers members) = .ok r) :
    s.decode (.ofMembers (renamed rename members)) = .ok r := by
  have hmembers : s.decode (.object members) = .ok r := h.decode_perm (perm_sortEntries distinct) hread
  have hrenamed : s.decode (.object (renamed rename members)) = .ok r := by
    rw [h.decode_object_eq_ok] at hmembers ⊢
    intro f hf
    rw [h.valuesIn_renamed halike hf]
    exact hmembers f hf
  have hdistinct := h.pairwise_renamed halike hmembers distinct
  exact h.decode_perm (perm_sortEntries hdistinct).symm hrenamed

end Shape

namespace RuntimeStatus

/-- The fields that have two names, with both of them. -/
def spellings : List (String × String) :=
  [("uptime_seconds", "uptime_s"), ("cached_maps", "maps_cached"), ("memory_mb", "cache_mb")]

/-- A choice of names to be replaced, each by the other name of its field. -/
def Respelling (rename : String → String) : Prop :=
  ∀ key, rename key = key ∨ (key, rename key) ∈ spellings ∨ (rename key, key) ∈ spellings

theorem regular : shape.Regular :=
  (lenient_resultShapes ⟨_, shape⟩ (by simp [resultShapes])).toRegular

theorem alike_of_mem_spellings {p : String × String} (h : p ∈ spellings) :
    shape.Alike p.1 p.2 := by
  refine .inr ?_
  simp only [spellings, List.mem_cons, List.not_mem_nil, or_false] at h
  obtain rfl | rfl | rfl := h <;> simp [shape, Field.Known]

theorem ne_of_mem_spellings : ∀ p ∈ spellings, p.1 ≠ p.2 := by decide

theorem Respelling.alike {rename : String → String} (h : Respelling rename) (key : String) :
    shape.Alike key (rename key) := by
  obtain hsame | hnewer | holder := h key
  · exact .inl hsame.symm
  · exact alike_of_mem_spellings hnewer
  · exact (alike_of_mem_spellings holder).symm

/-- The status has the pool of the member that is called so. -/
theorem pool_of_member {members : List (String × Json)} {status : RuntimeStatus}
    (hread : shape.decode (.object members) = .ok status) :
    match (Json.object members).member? "pool" with
    | none => status.pool = none
    | some j => (Codec.optional PoolStatus.shape.codec).decode j = .ok status.pool := by
  have hgives := regular.decode_object_eq_ok.1 hread
  simp only [shape, List.forall_mem_cons] at hgives
  obtain ⟨-, -, -, -, -, hpool, -⟩ := hgives
  exact hpool.of_member rfl

end RuntimeStatus

namespace PoolStatus

theorem lenient : shape.Lenient := lenient_resultShapes ⟨_, shape⟩ (by simp [resultShapes])

/-- The older names from outside mean nothing in a pool. -/
theorem not_known_of_mem_spellings :
    ∀ p ∈ RuntimeStatus.spellings, ∀ f ∈ shape.fields, ¬f.Known p.2 := by
  decide

/-- The pool takes its memory from the member of that name only. -/
theorem memory_of_member {members : List (String × Json)} {pool : PoolStatus}
    (hread : shape.decode (.object members) = .ok pool) :
    match (Json.object members).member? "memory_mb" with
    | none => pool.memory = 0.0
    | some j => Codec.double.decode j = .ok pool.memory := by
  have hgives := lenient.decode_object_eq_ok.1 hread
  simp only [shape, List.forall_mem_cons] at hgives
  obtain ⟨-, -, hmemory, -⟩ := hgives
  exact hmemory.of_member rfl

end PoolStatus

/-- What the client gives as the status when the service reports an object. -/
theorem Client.run_status_of_result {σ : Type} {exchange : Exchange σ} {s : σ}
    {members : List (String × Json)}
    (reply : (exchange (.status, Params.empty) s).1 = .ok (.result (.object members))) :
    (∀ status, (Client.status.run exchange s).outcome = .ok status ↔
      RuntimeStatus.shape.decode (.object members) = .ok status) ∧
    ∀ e, (Client.status.run exchange s).outcome = .error e → e.kind = .protocol := by
  have hfollows := Dialogue.follows_fetch .status Params.empty RuntimeStatus.shape
  obtain ⟨hok, herror⟩ := hfollows.run_of_result (fun _ => rfl) reply
  exact ⟨fun status => (hok status).trans Shape.ofResult_eq_ok, herror⟩

namespace RuntimeStatus

open Shape (renamed)

/-- The two names of a field stand for each other in a status. An object that is read as a status is
read as the same one, and the client gives the same one, after any of its members have been called by
the other names of their fields, whatever the other members are. An object with both names of a field
is not read, and the client reports a protocol error. The pool is read from its own member, and its
memory from the member of that name in it; a member of the pool that has an older name from outside
counts for nothing. -/
theorem spellings_interchange :
    (∀ rename, Respelling rename → ∀ members : List (String × Json),
      members.Pairwise (fun m n => m.1 ≠ n.1) → ∀ status,
        shape.decode (.ofMembers members) = .ok status →
          shape.decode (.ofMembers (renamed rename members)) = .ok status ∧
          ∀ (σ : Type) (exchange : Exchange σ) (s : σ),
            (exchange (.status, Params.empty) s).1 =
              .ok (.result (.ofMembers (renamed rename members))) →
            (Client.status.run exchange s).outcome = .ok status) ∧
    (∀ p ∈ spellings, ∀ members : List (String × Json),
      p.1 ∈ members.map Prod.fst → p.2 ∈ members.map Prod.fst →
        (∀ status, shape.decode (.ofMembers members) ≠ .ok status) ∧
        ∀ (σ : Type) (exchange : Exchange σ) (s : σ),
          (exchange (.status, Params.empty) s).1 = .ok (.result (.ofMembers members)) →
          ∃ e, (Client.status.run exchange s).outcome = .error e ∧ e.kind = .protocol) ∧
    (∀ members status, shape.decode (.ofMembers members) = .ok status →
      match (Json.ofMembers members).member? "pool" with
      | none => status.pool = none
      | some j => (Codec.optional PoolStatus.shape.codec).decode j = .ok status.pool) ∧
    (∀ inner pool, PoolStatus.shape.decode (.ofMembers inner) = .ok pool →
      match (Json.ofMembers inner).member? "memory_mb" with
      | none => pool.memory = 0.0
      | some j => Codec.double.decode j = .ok pool.memory) ∧
    ∀ p ∈ spellings, ∀ front back j pool,
      PoolStatus.shape.decode (.object (front ++ (p.2, j) :: back)) = .ok pool ↔
        PoolStatus.shape.decode (.object (front ++ back)) = .ok pool := by
  refine ⟨fun rename respelling members distinct status hread => ?_,
    fun p hp members hnewer holder => ?_, fun members status => pool_of_member,
    fun inner pool => PoolStatus.memory_of_member, fun p hp front back j pool => ?_⟩
  · have hrenamed := regular.decode_renamed respelling.alike distinct hread
    refine ⟨hrenamed, fun σ exchange s reply => ?_⟩
    exact ((Client.run_status_of_result reply).1 status).2 hrenamed
  · have hrefused := regular.decode_ne_ok_of_alike hnewer holder (ne_of_mem_spellings p hp)
      (alike_of_mem_spellings hp)
    refine ⟨hrefused, fun σ exchange s reply => ?_⟩
    obtain ⟨hok, herror⟩ := Client.run_status_of_result reply
    cases houtcome : (Client.status.run exchange s).outcome with
    | ok status => exact absurd ((hok status).1 houtcome) (hrefused status)
    | error e => exact ⟨e, rfl, herror e houtcome⟩
  · have hforeign := PoolStatus.not_known_of_mem_spellings p hp
    exact (PoolStatus.lenient.decode_of_addition (.unknown front back hforeign)).symm

/-- A status under three names that are all replaced, with a pool in which two members are called like
the memory outside; and one that has both names of its uptime. -/
theorem spellings_interchange_mixed :
    let rename (key : String) : String :=
      if key = "uptime_seconds" then "uptime_s" else if key = "maps_cached" then "cached_maps"
      else if key = "cache_mb" then "memory_mb" else key
    let inner : List (String × Json) := [("cache_mb", .float 9.0), ("memory_mb", .float 2.5)]
    let members : List (String × Json) :=
      [("cache_mb", .float 64.0), ("maps_cached", .int 3), ("pool", .object inner),
        ("region", .null), ("uptime_seconds", .float 1.5)]
    let status : RuntimeStatus := ⟨"unknown", 1.5, 0, 3, 64.0, some ⟨0, 0, 2.5⟩⟩
    let exchange (members : List (String × Json)) : Exchange Unit :=
      fun _ s => (.ok (.result (.ofMembers members)), s)
    Respelling rename ∧ shape.decode (.ofMembers members) = .ok status ∧
      renamed rename members =
        [("memory_mb", .float 64.0), ("cached_maps", .int 3), ("pool", .object inner),
          ("region", .null), ("uptime_s", .float 1.5)] ∧
      (Client.status.run (exchange (renamed rename members)) ()).outcome = .ok status ∧
      (Codec.optional PoolStatus.shape.codec).decode (.object inner) = .ok status.pool ∧
      Codec.double.decode (.float 2.5) = .ok 2.5 ∧
      PoolStatus.shape.decode (.object [("memory_mb", .float 2.5)]) = .ok ⟨0, 0, 2.5⟩ ∧
      ∃ e, (Client.status.run (exchange (("uptime_s", .null) :: members)) ()).outcome = .error e ∧
        e.kind = .protocol := by
  intro rename inner members status exchange
  have hrespelling : Respelling rename := by
    intro key
    simp only [rename]
    split_ifs with huptime hmaps hmemory
    · exact .inr (.inl (by simp [huptime, spellings]))
    · exact .inr (.inr (by simp [hmaps, spellings]))
    · exact .inr (.inr (by simp [hmemory, spellings]))
    · exact .inl rfl
  have hsorted : Json.ofMembers members = .object members :=
    congrArg Json.object (sortEntries_eq_self (by unfold Ascending; decide))
  have hinnerSorted : Json.ofMembers inner = .object inner :=
    congrArg Json.object (sortEntries_eq_self (by unfold Ascending; decide))
  have hread : shape.decode (.ofMembers members) = .ok status := by
    rw [hsorted]
    rfl
  have hinner : PoolStatus.shape.decode (.ofMembers inner) = .ok ⟨0, 0, 2.5⟩ := by
    rw [hinnerSorted]
    rfl
  obtain ⟨hsame, hboth, hpool, hmemory, hforeign⟩ := spellings_interchange
  obtain ⟨-, hclient⟩ := hsame rename hrespelling members (by decide) status hread
  obtain ⟨-, hrefused⟩ := hboth ("uptime_seconds", "uptime_s") (by simp [spellings])
    (("uptime_s", .null) :: members) (by decide) (by decide)
  have hpool := hpool members status hread
  rw [hsorted] at hpool
  have hmemory := hmemory inner ⟨0, 0, 2.5⟩ hinner
  rw [hinnerSorted] at hinner hmemory
  have hbare := (hforeign ("memory_mb", "cache_mb") (by simp [spellings]) []
    [("memory_mb", .float 2.5)] (.float 9.0) ⟨0, 0, 2.5⟩).1 hinner
  exact ⟨hrespelling, hread, rfl, hclient Unit (exchange (renamed rename members)) () rfl,
    hpool, hmemory, hbare,
    hrefused Unit (exchange (("uptime_s", .null) :: members)) () rfl⟩

end RuntimeStatus

end SiteAtlas
