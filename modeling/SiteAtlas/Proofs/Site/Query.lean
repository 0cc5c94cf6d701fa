import SiteAtlas.Proofs.Codec.Record
import SiteAtlas.Proofs.Faults
import SiteAtlas.Proofs.Table
import SiteAtlas.Site.Params

/-!
# Queries as parameters

A query is refused for the first thing in it that is not allowed, in the order of the checks. The
parameters of a query that is not refused are read as everything that it asks for; only whether a
single page type is asked for by itself or as a list is not told.
-/
namespace SiteAtlas

open Codec (readsBack_double_iff readsBack_list readsBack_optional readsBack_table readsBack_word)

def dimensionFaults (dimension : UInt8) : List Rejection :=
  if dimension.toNat < 128 then [] else [.dimension dimension]

def finiteFaults (what : Quantity) (value : Float) : List Rejection :=
  if Decimal.isFinite value then [] else [.notFinite what value]

theorem checkDimension_eq (dimension : UInt8) :
    checkDimension dimension = unlessFault (dimensionFaults dimension) () := by
  rw [checkDimension, dimensionFaults]
  by_cases h : dimension.toNat < 128 <;> simp [featureDimensions, h]

theorem checkFinite_eq (what : Quantity) (value : Float) :
    checkFinite what value = unlessFault (finiteFaults what value) () := by
  rw [checkFinite, finiteFaults]
  split <;> rfl

theorem dimensionFaults_eq_nil {dimension : UInt8} :
    dimensionFaults dimension = [] ↔ dimension.toNat < 128 := by
  simp [dimensionFaults]

theorem finiteFaults_eq_nil {what : Quantity} {value : Float} :
    finiteFaults what value = [] ↔ Decimal.isFinite value = true := by
  simp [finiteFaults]

/-- A number that passes its check has a JSON number. -/
theorem encode_double {what : Quantity} {value : Float} (h : finiteFaults what value = []) :
    Codec.double.encode value = .float value :=
  if_pos (finiteFaults_eq_nil.1 h)

/-- All bounds in the order in which they are checked. -/
def Bound.all : List Bound := [.gt, .lt, .min, .max]

def Bound.key : Codec.Key Bound := .named all name

def Direction.key : Codec.Key Direction := .named [.asc, .desc] name

theorem Bound.lawful_key : key.Lawful :=
  Codec.Key.lawful_named fun b => by cases b <;> decide

theorem Direction.lawful_key : key.Lawful :=
  Codec.Key.lawful_named fun d => by cases d <;> decide

def Domain.codec : Codec Domain := Codec.text.imap Domain.mk Domain.text

@[simp] theorem Domain.readsBack (d : Domain) : codec.ReadsBack d :=
  .imap (Codec.readsBack_text d.text) rfl

namespace SortBy

def shape : Shape SortBy where
  title := "SortBy"
  blank := ⟨0, .asc⟩
  fields := [
    ⟨"dimension", [], .required, Codec.word8, (·.dimension),
      fun v r => { r with dimension := v }⟩,
    ⟨"direction", [], .required, Codec.word Direction.key, (·.direction),
      fun v r => { r with direction := v }⟩]

theorem lawful : shape.Lawful where
  known := by simp [shape, Shape.field?, Field.Known]
  get_put := by simp [shape]
  get_put_of_ne := by simp [shape]
  ext := by
    rintro ⟨⟩ ⟨⟩ h
    simpa [shape] using h

theorem readsBack (s : SortBy) : shape.codec.ReadsBack s := by
  apply lawful.readsBack
  simp [shape, readsBack_word Direction.lawful_key]

end SortBy

/-- Everything that the parameters of a query ask for. -/
structure Asked where
  domain : Domain
  limit : UInt32
  /-- a single page type is a list of one -/
  pageTypes : Option (List UInt8)
  features : Table UInt8 (Table Bound Float)
  flags : Table String Bool
  sortBy : Option SortBy

namespace Asked

def featuresCodec : Codec (Table UInt8 (Table Bound Float)) :=
  .table .byte (.table Bound.key .double)

def flagsCodec : Codec (Table String Bool) := .table .name .bool

/-- What is not asked for may be left out. -/
def shape : Shape Asked where
  title := "Asked"
  blank := ⟨⟨""⟩, 0, none, .empty, .empty, none⟩
  fields := [
    ⟨"domain", [], .required, Domain.codec, (·.domain), fun v r => { r with domain := v }⟩,
    ⟨"limit", [], .required, Codec.word32, (·.limit), fun v r => { r with limit := v }⟩,
    ⟨"page_type", [], .defaulted, .optional (.list Codec.word8), (·.pageTypes),
      fun v r => { r with pageTypes := v }⟩,
    ⟨"features", [], .defaulted, featuresCodec, (·.features),
      fun v r => { r with features := v }⟩,
    ⟨"flags", [], .defaulted, flagsCodec, (·.flags), fun v r => { r with flags := v }⟩,
    ⟨"sort_by", [], .defaulted, .optional SortBy.shape.codec, (·.sortBy),
      fun v r => { r with sortBy := v }⟩]

theorem lawful : shape.Lawful where
  known := by simp [shape, Shape.field?, Field.Known]
  get_put := by simp [shape]
  get_put_of_ne := by simp [shape]
  ext := by
    rintro ⟨⟩ ⟨⟩ h
    simpa [shape] using h

def Finite (a : Asked) : Prop :=
  ∀ e ∈ a.features.entries, ∀ f ∈ e.2.entries, Decimal.isFinite f.2 = true

/-- What is not asked for has no member. -/
def leftOut (a : Asked) : String → Bool
  | "page_type" => a.pageTypes.isNone
  | "features" => a.features.isEmpty
  | "flags" => a.flags.isEmpty
  | "sort_by" => a.sortBy.isNone
  | _ => false

theorem members_eq (a : Asked) :
    shape.membersBut a.leftOut a =
      [("domain", Domain.codec.encode a.domain), ("limit", Codec.word32.encode a.limit)] ++
        optionalMember "page_type" (Codec.list Codec.word8).encode a.pageTypes ++
        (if a.features.isEmpty then [] else [("features", featuresCodec.encode a.features)]) ++
        (if a.flags.isEmpty then [] else [("flags", flagsCodec.encode a.flags)]) ++
        optionalMember "sort_by" SortBy.shape.codec.encode a.sortBy := by
  obtain ⟨domain, limit, pageTypes, features, flags, sortBy⟩ := a
  cases pageTypes <;> cases sortBy <;>
    simp [Shape.membersBut, shape, leftOut, optionalMember, Field.member, Codec.optional]

def json (a : Asked) : Json := .ofMembers (shape.membersBut a.leftOut a)

/-- What is asked is read from its parameters. -/
theorem decode_json {a : Asked} (h : a.Finite) : shape.decode a.json = .ok a := by
  have hfeatures : featuresCodec.ReadsBack a.features :=
    readsBack_table Codec.Key.lawful_byte fun e he =>
      readsBack_table Bound.lawful_key fun f hf => readsBack_double_iff.2 (h e he f hf)
  have hflags : flagsCodec.ReadsBack a.flags :=
    readsBack_table Codec.Key.lawful_name fun e _ => Codec.readsBack_bool e.2
  have htypes : (Codec.optional (Codec.list Codec.word8)).ReadsBack a.pageTypes :=
    readsBack_optional fun types _ =>
      ⟨readsBack_list fun t _ => Codec.readsBack_word8 t, Json.noConfusion⟩
  have hsort : (Codec.optional SortBy.shape.codec).ReadsBack a.sortBy :=
    readsBack_optional fun sort _ => ⟨SortBy.readsBack sort, Json.noConfusion⟩
  apply lawful.decode_membersBut
  · simp [shape, hfeatures, hflags, htypes, hsort]
  · simp [shape, leftOut, Table.isEmpty_iff]

end Asked

def dimensions : List UInt8 := (List.range 256).map UInt8.ofNat

theorem pairwise_dimensions : dimensions.Pairwise fun d e => compare d e = .lt := by
  rw [dimensions, List.pairwise_map]
  refine List.pairwise_lt_range.imp_of_mem fun {i j} hi hj hlt => ?_
  rw [List.mem_range] at hi hj
  rw [Std.compare_eq_lt, UInt8.lt_iff_toNat_lt, UInt8.toNat_ofNat_of_lt' hi,
    UInt8.toNat_ofNat_of_lt' hj]
  exact hlt

theorem mem_dimensions (d : UInt8) : d ∈ dimensions :=
  List.mem_map.2 ⟨d.toNat, List.mem_range.2 d.toNat_lt_size, UInt8.ofNat_toNat⟩

theorem Bound.pairwise_all : all.Pairwise fun b c => compare b c = .lt := by decide

theorem Bound.mem_all (b : Bound) : b ∈ all := by cases b <;> decide

namespace Query

/-- Every dimension exists, and every threshold is finite. -/
structure Valid (q : Query) : Prop where
  dimension : ∀ d bounds, q.features.get? d = some bounds → d.toNat < 128
  threshold : ∀ d bounds, q.features.get? d = some bounds →
    ∀ b x, bounds.get? b = some x → Decimal.isFinite x = true
  sort : ∀ s ∈ q.sortBy, s.dimension.toNat < 128

/-- What is wrong with the bounds of a dimension, in their order. -/
def boundFaults (bounds : Table Bound Float) : List Rejection :=
  Bound.all.flatMap fun b => (bounds.get? b).elim [] fun x => finiteFaults .threshold x

/-- What is wrong with the dimensions that are bounded, in ascending order, each before its
bounds. -/
def featureFaults (features : Table UInt8 (Table Bound Float)) : List Rejection :=
  dimensions.flatMap fun d => (features.get? d).elim [] fun bounds =>
    dimensionFaults d ++ boundFaults bounds

def sortFaults (sort : Option SortBy) : List Rejection :=
  sort.elim [] fun s => dimensionFaults s.dimension

/-- What is wrong with a query. The dimension to sort by is checked at last. -/
def violations (q : Query) : List Rejection := featureFaults q.features ++ sortFaults q.sortBy

theorem violations_eq_nil {q : Query} : q.violations = [] ↔ q.Valid := by
  have hbounds : ∀ bounds : Table Bound Float, boundFaults bounds = [] ↔
      ∀ b x, bounds.get? b = some x → Decimal.isFinite x = true := by
    intro bounds
    rw [boundFaults, List.flatMap_eq_nil_iff]
    refine forall_congr' fun b => ?_
    cases bounds.get? b <;> simp [Bound.mem_all, finiteFaults_eq_nil]
  have hfeatures : featureFaults q.features = [] ↔
      ∀ d bounds, q.features.get? d = some bounds →
        d.toNat < 128 ∧ ∀ b x, bounds.get? b = some x → Decimal.isFinite x = true := by
    rw [featureFaults, List.flatMap_eq_nil_iff]
    refine forall_congr' fun d => ?_
    cases q.features.get? d <;> simp [mem_dimensions, dimensionFaults_eq_nil, hbounds]
  have hsort : sortFaults q.sortBy = [] ↔ ∀ s ∈ q.sortBy, s.dimension.toNat < 128 := by
    rw [sortFaults]
    cases q.sortBy <;> simp [dimensionFaults_eq_nil]
  rw [violations, List.append_eq_nil_iff, hfeatures, hsort]
  constructor
  · rintro ⟨h, h'⟩
    exact ⟨fun d bounds hd => (h d bounds hd).1, fun d bounds hd => (h d bounds hd).2, h'⟩
  · intro h
    exact ⟨fun d bounds hd => ⟨h.dimension d bounds hd, h.threshold d bounds hd⟩, h.sort⟩

def asked (q : Query) (domain : Domain) : Asked :=
  ⟨domain, q.limit, q.pageTypes.map PageFilter.toList, q.features, q.flags, q.sortBy⟩

theorem boundMembers_eq (bounds : Table Bound Float) :
    boundMembers bounds.entries = unlessFault (boundFaults bounds)
      (bounds.entries.map fun e => (Bound.key.write e.1, Codec.double.encode e.2)) := by
  rw [boundFaults, ← bounds.flatMap_entries Bound.pairwise_all Bound.mem_all
    fun e => finiteFaults .threshold e.2]
  refine mapM_eq_unlessFault fun e _ => ?_
  refine (map_eq_unlessFault (checkFinite_eq .threshold e.2)).trans (unlessFault_congr fun h => ?_)
  rw [encode_double h]
  rfl

theorem featureMembers_eq (features : Table UInt8 (Table Bound Float)) :
    featureMembers features.entries =
      unlessFault (featureFaults features) (features.entries.map fun e =>
        (Codec.Key.byte.write e.1, (Codec.table Bound.key .double).encode e.2)) := by
  rw [featureFaults, ← features.flatMap_entries pairwise_dimensions mem_dimensions
    fun e => dimensionFaults e.1 ++ boundFaults e.2]
  refine mapM_eq_unlessFault fun e _ => ?_
  exact bind_eq_unlessFault (checkDimension_eq e.1) (map_eq_unlessFault (boundMembers_eq e.2))

theorem featuresMember_eq (q : Query) :
    q.featuresMember =
      unlessFault (featureFaults q.features) (if q.features.isEmpty then []
        else [("features", Asked.featuresCodec.encode q.features)]) := by
  rw [featuresMember]
  by_cases h : q.features.isEmpty = true
  · have hempty : q.features = .empty := Table.isEmpty_iff.1 h
    have hnone : featureFaults .empty = [] := List.flatMap_eq_nil_iff.2 fun _ _ => rfl
    rw [if_pos h, if_pos h, hempty, hnone]
    rfl
  · rw [if_neg h, if_neg h]
    exact map_eq_unlessFault (featureMembers_eq q.features)

theorem sortMember_eq (q : Query) :
    q.sortMember = unlessFault (sortFaults q.sortBy)
      (optionalMember "sort_by" SortBy.shape.codec.encode q.sortBy) := by
  rw [sortMember]
  cases q.sortBy with
  | none => rfl
  | some s => exact map_eq_unlessFault (checkDimension_eq s.dimension)

/-- All checks of a query, and the parameters that it has if it passes them. -/
theorem params_eq (q : Query) (domain : Domain) :
    Params.query domain q = unlessFault q.violations (q.asked domain).json := by
  have hmembers : q.members domain = unlessFault q.violations
      (Asked.shape.membersBut (q.asked domain).leftOut (q.asked domain)) := by
    rw [members]
    refine (bind_eq_unlessFault q.featuresMember_eq (map_eq_unlessFault q.sortMember_eq)).trans
      (congrArg _ ?_)
    rw [Asked.members_eq, asked]
    cases q.pageTypes <;> rfl
  exact map_eq_unlessFault hmembers

/-- Two queries ask for the same, but one may ask for a page type by itself and the other one for a
list of it. -/
structure Alike (q r : Query) : Prop where
  pageTypes : q.pageTypes = r.pageTypes ∨
    ∃ t, q.pageTypes = some (.one t) ∧ r.pageTypes = some (.many [t]) ∨
      q.pageTypes = some (.many [t]) ∧ r.pageTypes = some (.one t)
  features : q.features = r.features
  flags : q.flags = r.flags
  sortBy : q.sortBy = r.sortBy
  limit : q.limit = r.limit

theorem toList_pageTypes_eq {a b : Option PageFilter} :
    a.map PageFilter.toList = b.map PageFilter.toList ↔ a = b ∨
      ∃ t, a = some (.one t) ∧ b = some (.many [t]) ∨ a = some (.many [t]) ∧ b = some (.one t) := by
  rcases a with _ | ⟨s⟩ | ⟨ss⟩ <;> rcases b with _ | ⟨t⟩ | ⟨ts⟩ <;>
    simp [PageFilter.toList, eq_comm]

theorem asked_eq_iff {q r : Query} {domain : Domain} :
    q.asked domain = r.asked domain ↔ q.Alike r := by
  simp only [asked, Asked.mk.injEq, toList_pageTypes_eq, true_and]
  constructor
  · rintro ⟨hlimit, htypes, hfeatures, hflags, hsort⟩
    exact ⟨htypes, hfeatures, hflags, hsort, hlimit⟩
  · intro h
    exact ⟨h.limit, h.pageTypes, h.features, h.flags, h.sortBy⟩

theorem Valid.finite {q : Query} (h : q.Valid) (domain : Domain) : (q.asked domain).Finite :=
  fun e he f hf => h.threshold e.1 e.2 (entryAt?_of_mem q.features.ascending he) f.1 f.2
    (entryAt?_of_mem e.2.ascending hf)

theorem member?_pageTypes (q : Query) (domain : Domain) :
    (q.asked domain).json.member? "page_type" =
      q.pageTypes.map fun filter => .list (filter.toList.map fun t => .nat t.toNat) := by
  have hnames : Asked.shape.fields.Pairwise fun f g => f.name ≠ g.name := by simp [Asked.shape]
  let field : Field Asked := ⟨"page_type", [], .defaulted, .optional (.list Codec.word8),
    (·.pageTypes), fun v r => { r with pageTypes := v }⟩
  have hfield : field ∈ Asked.shape.fields := by simp [field, Asked.shape]
  have hmember := Shape.member?_membersBut hnames (q.asked domain).leftOut (q.asked domain) hfield
  refine hmember.trans ?_
  simp only [field, asked, Asked.leftOut]
  cases q.pageTypes <;> rfl

/-- A query has parameters if and only if its dimensions exist and its thresholds are finite;
otherwise the first violation is reported. Everything that is asked for can be read from the
parameters, and page types are a list, if they are asked for. So queries with the same parameters
ask for the same. -/
theorem params_faithful (domain : Domain) (q : Query) :
    let result := Params.query domain q
    ((∃ params, result = .ok params) ↔ q.Valid) ∧
    (∀ why, result = .error why ↔
      q.violations.head? = some why ∧ (ClientError.rejected why).kind = .invalidInput) ∧
    (∀ params, result = .ok params →
      Asked.shape.decode params = .ok (q.asked domain) ∧
        params.member? "page_type" =
          q.pageTypes.map fun filter => .list (filter.toList.map fun t => .nat t.toNat)) ∧
    ∀ r : Query, q.Valid → r.Valid → (result = Params.query domain r ↔ q.Alike r) := by
  intro result
  have hresult : result = unlessFault q.violations (q.asked domain).json := q.params_eq domain
  refine ⟨?_, fun why => ?_, fun params hparams => ?_, fun r hq hr => ?_⟩
  · rw [hresult, exists_unlessFault_eq_ok, violations_eq_nil]
  · rw [hresult, unlessFault_eq_error]
    exact ⟨fun h => ⟨h, rfl⟩, And.left⟩
  · rw [hresult, unlessFault_eq_ok, violations_eq_nil] at hparams
    obtain ⟨hvalid, rfl⟩ := hparams
    exact ⟨Asked.decode_json (hvalid.finite domain), q.member?_pageTypes domain⟩
  · rw [hresult, r.params_eq, violations_eq_nil.2 hq, violations_eq_nil.2 hr, ← asked_eq_iff]
    constructor
    · intro h
      have hjson : (q.asked domain).json = (r.asked domain).json := Except.ok.inj h
      have hread := Asked.decode_json (hq.finite domain)
      rw [hjson, Asked.decode_json (hr.finite domain)] at hread
      exact (Except.ok.inj hread).symm
    · intro h
      rw [h]

/-- Dimensions are checked in their order, whatever order they were bounded in, and the order of the
nodes at last. -/
example :
    let q := ((default.withSort 200 .asc).withFeature 131 .max 0.5).withFeature 130 .gt 0.5
    Params.query ⟨"a.com"⟩ q = .error (.dimension 130) :=
  rfl

end Query

end SiteAtlas
