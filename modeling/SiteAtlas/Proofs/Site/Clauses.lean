import SiteAtlas.Proofs.Last
import SiteAtlas.Proofs.Site.Query

/-!
# Queries and the clauses they are made of

A query is made by setting one thing after another. There is one slot for the page types, one for
the order and one for the limit, one for each bound of each dimension, and one for each flag. What
is set again is replaced, and all other slots are left as they are, so a query asks for the last
clause of each slot. Neither the order in which slots are set nor what has been replaced makes a
difference to the request, or to what it is refused for.
-/
namespace SiteAtlas

/-- What can be set in a query. -/
inductive Clause where
  | pageTypes (filter : PageFilter)
  | feature (dimension : UInt8) (bound : Bound) (threshold : Float)
  | flag (name : String) (value : Bool)
  | sort (dimension : UInt8) (direction : Direction)
  | limit (limit : UInt32)

namespace Clause

inductive Slot where
  | pageTypes
  | feature (dimension : UInt8) (bound : Bound)
  | flag (name : String)
  | sort
  | limit
  deriving DecidableEq

def slot : Clause → Slot
  | .pageTypes _ => .pageTypes
  | .feature dimension bound _ => .feature dimension bound
  | .flag name _ => .flag name
  | .sort .. => .sort
  | .limit _ => .limit

def faults : Clause → List Rejection
  | .feature dimension _ threshold => dimensionFaults dimension ++ finiteFaults .threshold threshold
  | .sort dimension _ => dimensionFaults dimension
  | .pageTypes _ | .flag .. | .limit _ => []

end Clause

namespace Query

def withClause (q : Query) : Clause → Query
  | .pageTypes filter => q.withPageTypes filter
  | .feature dimension bound threshold => q.withFeature dimension bound threshold
  | .flag name value => q.withFlag name value
  | .sort dimension direction => q.withSort dimension direction
  | .limit limit => q.withLimit limit

/-- The query in which clauses are set one after another. -/
def ofClauses (clauses : List Clause) : Query := clauses.foldl withClause default

/-- A query asks for what a clause sets. -/
def Asks (q : Query) : Clause → Prop
  | .pageTypes filter => q.pageTypes = some filter
  | .feature dimension bound threshold =>
    (q.features.get? dimension).bind (·.get? bound) = some threshold
  | .flag name value => q.flags.get? name = some value
  | .sort dimension direction => q.sortBy = some ⟨dimension, direction⟩
  | .limit limit => q.limit = limit

/-- Every dimension that is held is bounded. -/
def Filled (q : Query) : Prop :=
  ∀ d bounds, q.features.get? d = some bounds → ∃ b x, bounds.get? b = some x

/-- A bound of a dimension is replaced, and all others are left, those of the same dimension too. -/
theorem bound_withFeature (q : Query) (d e : UInt8) (b c : Bound) (x : Float) :
    ((q.withFeature d b x).features.get? e).bind (·.get? c) =
      if d = e ∧ b = c then some x else (q.features.get? e).bind (·.get? c) := by
  rw [withFeature, Table.get?_insert]
  by_cases hd : d = e
  · subst hd
    rw [if_pos rfl, Option.bind_some, Table.get?_insert]
    cases q.features.get? d <;> simp
  · rw [if_neg hd, if_neg fun h => hd h.1]

/-- A clause takes the place of the one with its slot, and of no other. -/
theorem asks_withClause (q : Query) (c d : Clause) :
    (q.withClause d).Asks c ↔ d = c ∨ d.slot ≠ c.slot ∧ q.Asks c := by
  cases d with
  | pageTypes filter => cases c <;> simp [withClause, withPageTypes, Asks, Clause.slot]
  | sort dimension direction => cases c <;> simp [withClause, withSort, Asks, Clause.slot]
  | limit limit => cases c <;> simp [withClause, withLimit, Asks, Clause.slot]
  | flag name value =>
    cases c with
    | flag other v =>
      simp only [withClause, withFlag, Asks, Table.get?_insert]
      by_cases h : name = other <;> simp [h, Clause.slot]
    | _ => simp [withClause, withFlag, Asks, Clause.slot]
  | feature dimension bound threshold =>
    cases c with
    | feature e b x =>
      simp only [withClause, Asks, bound_withFeature]
      by_cases h : dimension = e ∧ bound = b
      · simp [h, Clause.slot]
      · have hslot : (Clause.feature dimension bound threshold).slot ≠
            (Clause.feature e b x).slot := by simpa [Clause.slot] using h
        rw [if_neg h, or_iff_right fun heq => hslot (congrArg Clause.slot heq),
          and_iff_right hslot]
    | _ => simp [withClause, withFeature, Asks, Clause.slot]

theorem Filled.withClause {q : Query} (h : q.Filled) (c : Clause) : (q.withClause c).Filled := by
  cases c with
  | feature dimension bound threshold =>
    intro d bounds hd
    by_cases hdimension : d = dimension
    · subst hdimension
      obtain rfl := Option.some.inj ((Table.get?_insert_self _ _ _).symm.trans hd)
      exact ⟨bound, threshold, Table.get?_insert_self _ _ _⟩
    · exact h d bounds ((Table.get?_insert_of_ne _ _ hdimension).symm.trans hd)
  | _ => exact h

theorem asks_default {c : Clause} : default.Asks c ↔ c = .limit 100 := by
  cases c <;> simp [Asks, default, eq_comm]

/-- A query asks for the last clause of each slot. Without a limit it has the usual one. -/
theorem asks_ofClauses {clauses : List Clause} {c : Clause} :
    (ofClauses clauses).Asks c ↔
      LastOf Clause.slot clauses c ∨ (∀ d ∈ clauses, d.slot ≠ c.slot) ∧ c = .limit 100 := by
  rw [← asks_default]
  exact holds_foldl asks_withClause

theorem filled_ofClauses (clauses : List Clause) : (ofClauses clauses).Filled := by
  have hrun (q : Query) (h : q.Filled) : (clauses.foldl withClause q).Filled := by
    induction clauses generalizing q with
    | nil => exact h
    | cons c clauses ih => exact ih _ (h.withClause c)
  exact hrun default nofun

/-- A query is known from what it asks for. -/
theorem eq_of_asks {q r : Query} (hq : q.Filled) (hr : r.Filled) (h : ∀ c, q.Asks c ↔ r.Asks c) :
    q = r := by
  have hfeatures : q.features = r.features := by
    refine Table.ext_get? fun d => ?_
    have hbound (b : Bound) : (q.features.get? d).bind (·.get? b) =
        (r.features.get? d).bind (·.get? b) := Option.ext fun x => h (.feature d b x)
    cases hqd : q.features.get? d with
    | none =>
      cases hrd : r.features.get? d with
      | none => rfl
      | some bounds =>
        obtain ⟨b, x, hx⟩ := hr d bounds hrd
        simpa [hqd, hrd, hx] using hbound b
    | some bounds =>
      cases hrd : r.features.get? d with
      | none =>
        obtain ⟨b, x, hx⟩ := hq d bounds hqd
        simpa [hqd, hrd, hx] using hbound b
      | some others =>
        refine congrArg some (Table.ext_get? fun b => ?_)
        simpa [hqd, hrd] using hbound b
  have hflags : q.flags = r.flags :=
    Table.ext_get? fun name => Option.ext fun value => h (.flag name value)
  have htypes : q.pageTypes = r.pageTypes := Option.ext fun filter => h (.pageTypes filter)
  have hsort : q.sortBy = r.sortBy := Option.ext fun sort => h (.sort sort.dimension sort.direction)
  have hlimit : r.limit = q.limit := (h (.limit q.limit)).1 rfl
  obtain ⟨⟩ := q
  obtain ⟨⟩ := r
  rw [mk.injEq]
  exact ⟨htypes, hfeatures, hflags, hsort, hlimit.symm⟩

theorem ofClauses_congr {clauses others : List Clause}
    (h : ∀ c, LastOf Clause.slot clauses c ↔ LastOf Clause.slot others c) :
    ofClauses clauses = ofClauses others := by
  refine eq_of_asks (filled_ofClauses clauses) (filled_ofClauses others) fun c => ?_
  simp only [asks_ofClauses, forall_key_ne_iff, h]

theorem mem_boundFaults_iff {bounds : Table Bound Float} {why : Rejection} :
    why ∈ boundFaults bounds ↔ ∃ b x, bounds.get? b = some x ∧ why ∈ finiteFaults .threshold x := by
  rw [boundFaults, List.mem_flatMap]
  refine exists_congr fun b => ?_
  cases bounds.get? b <;> simp [Bound.mem_all]

theorem mem_featureFaults_iff {features : Table UInt8 (Table Bound Float)} {why : Rejection} :
    why ∈ featureFaults features ↔ ∃ d bounds, features.get? d = some bounds ∧
      (why ∈ dimensionFaults d ∨ why ∈ boundFaults bounds) := by
  rw [featureFaults, List.mem_flatMap]
  refine exists_congr fun d => ?_
  cases features.get? d <;> simp [mem_dimensions]

theorem mem_sortFaults_iff {sort : Option SortBy} {why : Rejection} :
    why ∈ sortFaults sort ↔ ∃ s ∈ sort, why ∈ dimensionFaults s.dimension := by
  cases sort <;> simp [sortFaults]

/-- What is wrong with a query is what is wrong with the clauses that it asks for. -/
theorem mem_violations_iff {q : Query} (h : q.Filled) {why : Rejection} :
    why ∈ q.violations ↔ ∃ c, q.Asks c ∧ why ∈ c.faults := by
  rw [violations, List.mem_append, mem_featureFaults_iff, mem_sortFaults_iff]
  constructor
  · rintro (⟨d, bounds, hd, hwhy⟩ | ⟨s, hs, hwhy⟩)
    · rcases hwhy with hwhy | hwhy
      · -- a dimension that is held has a bound, and is a fault of the clause for that
        obtain ⟨b, x, hx⟩ := h d bounds hd
        exact ⟨.feature d b x, by simp [Asks, hd, hx], List.mem_append_left _ hwhy⟩
      · obtain ⟨b, x, hx, hwhy⟩ := mem_boundFaults_iff.1 hwhy
        exact ⟨.feature d b x, by simp [Asks, hd, hx], List.mem_append_right _ hwhy⟩
    · exact ⟨.sort s.dimension s.direction, hs, hwhy⟩
  · rintro ⟨c, hc, hwhy⟩
    cases c with
    | feature d b x =>
      obtain ⟨bounds, hd, hx⟩ := Option.bind_eq_some_iff.1 hc
      refine .inl ⟨d, bounds, hd, ?_⟩
      rcases List.mem_append.1 hwhy with hwhy | hwhy
      · exact .inl hwhy
      · exact .inr (mem_boundFaults_iff.2 ⟨b, x, hx, hwhy⟩)
    | sort d direction => exact .inr ⟨⟨d, direction⟩, hc, hwhy⟩
    | _ => cases hwhy

theorem mem_violations_ofClauses {clauses : List Clause} {why : Rejection} :
    why ∈ (ofClauses clauses).violations ↔
      ∃ c ∈ lastOfEach Clause.slot clauses, why ∈ c.faults := by
  rw [mem_violations_iff (filled_ofClauses clauses)]
  refine exists_congr fun c => and_congr_left fun hwhy => ?_
  rw [asks_ofClauses, mem_lastOfEach, or_iff_left]
  rintro ⟨-, rfl⟩
  cases hwhy

/-- A query asks for the last clause of each slot and, without a limit, for the usual one. So only
these clauses count, and their order does not: the parameters, or what the query is refused for,
stay the same if all others are left out, if neighbours with different slots change places, and if a
clause that is replaced later is taken away, valid or not. A query is refused if and only if
something is wrong with one of the last clauses, and only for such a thing. -/
theorem last_clauses_count (domain : Domain) :
    let outcome (clauses : List Clause) := Params.query domain (ofClauses clauses)
    (∀ clauses c, (ofClauses clauses).Asks c ↔ c ∈ lastOfEach Clause.slot clauses ∨
      (∀ d ∈ clauses, d.slot ≠ c.slot) ∧ c = .limit 100) ∧
    (∀ clauses, outcome (lastOfEach Clause.slot clauses) = outcome clauses) ∧
    (∀ front back c d, c.slot ≠ d.slot →
      outcome (front ++ c :: d :: back) = outcome (front ++ d :: c :: back)) ∧
    (∀ front mid back c d, c.slot = d.slot →
      outcome (front ++ c :: (mid ++ d :: back)) = outcome (front ++ (mid ++ d :: back))) ∧
    ∀ clauses,
      ((∃ params, outcome clauses = .ok params) ↔
        ∀ c ∈ lastOfEach Clause.slot clauses, c.faults = []) ∧
      ∀ why, outcome clauses = .error why →
        ∃ c ∈ lastOfEach Clause.slot clauses, why ∈ c.faults := by
  intro outcome
  have hcongr {clauses others : List Clause}
      (h : ∀ c, LastOf Clause.slot clauses c ↔ LastOf Clause.slot others c) :
      outcome clauses = outcome others := congrArg (Params.query domain) (ofClauses_congr h)
  refine ⟨fun clauses c => by rw [asks_ofClauses, mem_lastOfEach],
    fun clauses => hcongr fun c => lastOf_lastOfEach,
    fun front back c d h => hcongr fun e => lastOf_swap h front back,
    fun front mid back c d h => hcongr fun e => lastOf_replaced h front mid back,
    fun clauses => ⟨?_, fun why hwhy => ?_⟩⟩
  · simp only [outcome, params_eq]
    rw [exists_unlessFault_eq_ok, List.eq_nil_iff_forall_not_mem]
    simp only [mem_violations_ofClauses, not_exists, not_and, List.eq_nil_iff_forall_not_mem]
    exact forall_comm.trans (forall_congr' fun c => forall_comm)
  · simp only [outcome, params_eq, unlessFault_eq_error] at hwhy
    exact mem_violations_ofClauses.1 (List.mem_of_head? hwhy)

/-- A threshold that is no number and a dimension to sort by that does not exist are replaced, while
the other bound of the same dimension is kept. -/
theorem last_clauses_count_replaced :
    let clauses : List Clause := [.feature 3 .gt (0.0 / 0.0), .sort 200 .asc, .feature 3 .lt 1.5,
      .sort 4 .desc, .feature 3 .gt 0.5]
    let last : List Clause := [.feature 3 .lt 1.5, .sort 4 .desc, .feature 3 .gt 0.5]
    Params.query ⟨"a.com"⟩ (ofClauses clauses) = Params.query ⟨"a.com"⟩ (ofClauses last) ∧
      ∃ params, Params.query ⟨"a.com"⟩ (ofClauses clauses) = .ok params := by
  intro clauses last
  obtain ⟨-, hlast, -, -, hfaults⟩ := last_clauses_count ⟨"a.com"⟩
  have heach : lastOfEach Clause.slot clauses = last := rfl
  refine ⟨?_, (hfaults clauses).1.2 ?_⟩
  · rw [← heach]
    exact (hlast clauses).symm
  · rw [heach]
    simp only [last, List.forall_mem_cons]
    exact ⟨rfl, rfl, rfl, nofun⟩

end Query

end SiteAtlas
