import SiteAtlas.Proofs.Codec.Acceptance
import SiteAtlas.Proofs.Codec.Defaults
import SiteAtlas.Proofs.Codec.Timestamps
import SiteAtlas.Proofs.Json.RoundTrip

/-!
# Integers are taken as they stand

A codec reads integers at certain places of a JSON value: at numbers, which may be nested in lists,
tables and fields, and at the keys of tables. Reading succeeds only if at each place stands an
integer of the place's range, and that integer is what the value read holds for the place.
-/
namespace SiteAtlas

/-- A place in a JSON value, where an integer is read for a part of an `α`. -/
structure Place (α : Type) where
  /-- all integers of the part's type are below -/
  limit : Nat
  /-- how an integer is written at the place -/
  form : Nat → Json
  /-- what stands at the place -/
  found : Json
  /-- the integer that is the part -/
  held : α → Option Nat

namespace Place

variable {α β : Type}

def number (limit : Nat) (toNat : α → Nat) (j : Json) : Place α :=
  ⟨limit, fun n => .int n, j, fun a => some (toNat a)⟩

/-- The place of a key; what a table holds there is the key of that text. -/
def key (name : String) : Place (Table UInt8 α) :=
  ⟨UInt8.size, fun n => .text (toString n), .text name, fun t =>
    (t.keys.find? fun k => Codec.Key.byte.write k = name).map UInt8.toNat⟩

def within (part : β → Option α) (p : Place α) : Place β :=
  ⟨p.limit, p.form, p.found, fun b => (part b).bind p.held⟩

/-- An integer of the range stands at the place, and it is what the value holds. -/
def Taken (p : Place α) (a : α) : Prop := ∃ n < p.limit, p.found = p.form n ∧ p.held a = some n

theorem Taken.within {p : Place α} {a : α} (h : p.Taken a) {part : β → Option α} {b : β}
    (hpart : part b = some a) : (p.within part).Taken b := by
  obtain ⟨n, hn, hfound, hheld⟩ := h
  exact ⟨n, hn, hfound, by simp [Place.within, hpart, hheld]⟩

theorem taken_key {t : Table UInt8 α} {k : UInt8} (h : k ∈ t.keys) :
    (key (Codec.Key.byte.write k)).Taken t := by
  refine ⟨k.toNat, k.toNat_lt_size, rfl, ?_⟩
  cases hfound : t.keys.find? fun l => Codec.Key.byte.write l = Codec.Key.byte.write k with
  | none =>
    rw [List.find?_eq_none] at hfound
    exact absurd (decide_eq_true rfl) (hfound k h)
  | some l =>
    have hwrite : Codec.Key.byte.write l = Codec.Key.byte.write k := by
      simpa using List.find?_some hfound
    obtain rfl := Codec.Key.lawful_byte.injective hwrite
    simp only [key, hfound, Option.map_some]

end Place

def recordShapes (env : Environment) : List (Σ ρ : Type, Shape ρ) :=
  resultShapes ++ [⟨_, PathAction.shape⟩, ⟨_, WatchDelta.shape⟩, ⟨_, PageResult.shape⟩,
    ⟨_, CompareResult.shape⟩, ⟨_, Settings.shape env⟩]

theorem regular_recordShapes (env : Environment) : ∀ s ∈ recordShapes env, s.2.Regular := by
  simp only [recordShapes, List.forall_mem_append, List.forall_mem_cons, List.not_mem_nil,
    false_imp_iff, implies_true, and_true]
  exact ⟨fun s hs => (lenient_resultShapes s hs).toRegular, ⟨PathAction.lawful, by decide⟩,
    WatchDelta.regular, ⟨PageResult.lawful, by decide⟩, ⟨CompareResult.lawful, by decide⟩,
    ⟨Settings.lawful env, by simp [Shape.keys, Settings.shape]⟩⟩

theorem Shape.canonical_of_mem_slots {ρ : Type} {s : Shape ρ} {j : Json} (h : j.Canonical)
    {e : Field ρ × Json} (he : e ∈ s.slots j) : e.2.Canonical := by
  cases j with
  | object members =>
    obtain ⟨f, -, he⟩ := List.mem_flatMap.1 he
    obtain ⟨x, hx, rfl⟩ := List.mem_map.1 he
    obtain ⟨key, hmem, -⟩ := Field.mem_valuesIn.1 hx
    exact Json.membersCanonical_iff.1 h.2 _ hmem
  | list items => exact Json.itemsCanonical_iff.1 h _ (List.of_mem_zip he).2
  | _ => cases he

namespace Codec

/-- The places for integers in a JSON value, for a codec that reads it. -/
inductive HasPlace : {α : Type} → Codec α → Json → Place α → Prop
  | word8 (j : Json) : HasPlace word8 j (.number UInt8.size UInt8.toNat j)
  | word16 (j : Json) : HasPlace word16 j (.number UInt16.size UInt16.toNat j)
  | word32 (j : Json) : HasPlace word32 j (.number UInt32.size UInt32.toNat j)
  | word64 (j : Json) : HasPlace word64 j (.number UInt64.size UInt64.toNat j)
  | optional {α : Type} {c : Codec α} {j : Json} {p : Place α} (present : j ≠ .null)
      (inner : HasPlace c j p) : HasPlace (optional c) j (p.within id)
  | item {α : Type} {c : Codec α} {js : List Json} {i : Nat} {j : Json} {p : Place α}
      (listed : js[i]? = some j) (inner : HasPlace c j p) :
      HasPlace (list c) (.list js) (p.within fun as => as[i]?)
  | first {α β : Type} {want wantLength : String} {c : Codec α} {d : Codec β} {x y : Json}
      {p : Place α} (inner : HasPlace c x p) :
      HasPlace (pairAs want wantLength c d) (.list [x, y]) (p.within fun q => some q.1)
  | second {α β : Type} {want wantLength : String} {c : Codec α} {d : Codec β} {x y : Json}
      {p : Place β} (inner : HasPlace d y p) :
      HasPlace (pairAs want wantLength c d) (.list [x, y]) (p.within fun q => some q.2)
  | key {α : Type} {c : Codec α} {ms : List (String × Json)} {m : String × Json}
      (member : m ∈ ms) : HasPlace (table .byte c) (.object ms) (.key m.1)
  | named {α : Type} {c : Codec α} {ms : List (String × Json)} {k : String} {j : Json}
      {p : Place α} (member : (Key.name.write k, j) ∈ ms) (inner : HasPlace c j p) :
      HasPlace (table .name c) (.object ms) (p.within fun t => t.get? k)
  | numbered {α : Type} {c : Codec α} {ms : List (String × Json)} {k : UInt8} {j : Json}
      {p : Place α} (member : (Key.byte.write k, j) ∈ ms) (inner : HasPlace c j p) :
      HasPlace (table .byte c) (.object ms) (p.within fun t => t.get? k)
  | field {env : Environment} {ρ : Type} {s : Shape ρ} (declared : ⟨ρ, s⟩ ∈ recordShapes env)
      {j : Json} {f : Field ρ} {x : Json} {p : Place f.α} (slot : (f, x) ∈ s.slots j)
      (inner : HasPlace f.codec x p) : HasPlace s.codec j (p.within fun r => some (f.get r))
  | imap {α β : Type} {c : Codec α} {make : α → β} {back : β → α}
      (inverse : ∀ a, back (make a) = a) {j : Json} {p : Place α} (inner : HasPlace c j p) :
      HasPlace (c.imap make back) j (p.within fun b => some (back b))

/-- A codec made of scalars and containers in which every integer has its place: there are no
integers but the words and the keys that are bytes. -/
inductive Composed (env : Environment) : {α : Type} → Codec α → Prop
  | bool : Composed env bool
  | textAs (want : String) : Composed env (textAs want)
  | double : Composed env double
  | instant : Composed env instant
  | word8 : Composed env word8
  | word16 : Composed env word16
  | word32 : Composed env word32
  | word64 : Composed env word64
  | optional {α : Type} {c : Codec α} (inner : Composed env c) : Composed env (optional c)
  | list {α : Type} {c : Codec α} (inner : Composed env c) : Composed env (list c)
  | pairAs {α β : Type} {want wantLength : String} {c : Codec α} {d : Codec β}
      (first : Composed env c) (second : Composed env d) :
      Composed env (pairAs want wantLength c d)
  | named {α : Type} {c : Codec α} (inner : Composed env c) : Composed env (table .name c)
  | numbered {α : Type} {c : Codec α} (inner : Composed env c) : Composed env (table .byte c)
  | record {ρ : Type} {s : Shape ρ} (declared : ⟨ρ, s⟩ ∈ recordShapes env)
      (fields : ∀ f ∈ s.fields, Composed env f.codec) : Composed env s.codec
  | imap {α β : Type} {c : Codec α} {make : α → β} {back : β → α}
      (inverse : ∀ a, back (make a) = a) (inner : Composed env c) :
      Composed env (c.imap make back)

attribute [simp] Composed.bool Composed.textAs Composed.double Composed.instant Composed.word8
  Composed.word16 Composed.word32 Composed.word64 Composed.optional Composed.list Composed.pairAs
  Composed.named Composed.numbered

@[simp] theorem Composed.text {env : Environment} : Composed env Codec.text := .textAs _

@[simp] theorem Composed.pair {env : Environment} {α β : Type} {c : Codec α} {d : Codec β}
    (hc : Composed env c) (hd : Composed env d) : Composed env (Codec.pair c d) := .pairAs hc hd

/-- What is read has at each place the integer that stands there. By induction on the way to the
place: a container that is read is one of parts that are read. -/
theorem HasPlace.taken {α : Type} {c : Codec α} {j : Json} {p : Place α} (h : c.HasPlace j p)
    {a : α} (canonical : j.Canonical) (hread : c.decode j = .ok a) : p.Taken a := by
  induction h with
  | word8 j => exact ⟨a.toNat, a.toNat_lt_size, word8_eq_ok.1 hread, rfl⟩
  | word16 j => exact ⟨a.toNat, a.toNat_lt_size, word16_eq_ok.1 hread, rfl⟩
  | word32 j => exact ⟨a.toNat, a.toNat_lt_size, word32_eq_ok.1 hread, rfl⟩
  | word64 j => exact ⟨a.toNat, a.toNat_lt_size, word64_eq_ok.1 hread, rfl⟩
  | optional present _ ih =>
    rcases optional_eq_ok.1 hread with ⟨hnull, -⟩ | ⟨-, b, hb, rfl⟩
    · exact absurd hnull present
    · exact (ih canonical hb).within rfl
  | @item α c js i j p listed _ ih =>
    obtain ⟨b, hb, hj⟩ := getElem?_of_list hread listed
    have hcanonical := Json.itemsCanonical_iff.1 canonical j (List.mem_of_getElem? listed)
    exact (ih hcanonical hj).within hb
  | first _ ih =>
    obtain ⟨_, _, hxy, hx, -⟩ := pairAs_eq_ok.1 hread
    cases hxy
    exact (ih canonical.1 hx).within rfl
  | second _ ih =>
    obtain ⟨_, _, hxy, -, hy⟩ := pairAs_eq_ok.1 hread
    cases hxy
    exact (ih canonical.2.1 hy).within rfl
  | key member =>
    have distinct := pairwise_ne_of_ascending canonical.1
    obtain ⟨k, b, hname, -, hget⟩ := entry_of_member Key.exact_byte distinct hread member
    rw [hname]
    exact Place.taken_key (Table.mem_keys_iff.2 (Option.isSome_of_eq_some hget))
  | named member _ ih =>
    have distinct := pairwise_ne_of_ascending canonical.1
    obtain ⟨b, hb, hget⟩ := value_of_member Key.exact_name distinct hread member
    exact (ih (Json.membersCanonical_iff.1 canonical.2 _ member) hb).within hget
  | numbered member _ ih =>
    have distinct := pairwise_ne_of_ascending canonical.1
    obtain ⟨b, hb, hget⟩ := value_of_member Key.exact_byte distinct hread member
    exact (ih (Json.membersCanonical_iff.1 canonical.2 _ member) hb).within hget
  | @field env ρ s declared j f x p slot _ ih =>
    have hslot := (regular_recordShapes env _ declared).decode_slots hread slot
    exact (ih (Shape.canonical_of_mem_slots canonical slot) hslot).within rfl
  | imap inverse _ ih =>
    obtain ⟨b, hb, rfl⟩ := map_eq_ok.1 hread
    exact (ih canonical hb).within (congrArg some (inverse b))

/-- A value is refused if at some place stands anything but an integer of the place's range. -/
theorem HasPlace.refused {α : Type} {c : Codec α} {j : Json} {p : Place α} (h : c.HasPlace j p)
    (canonical : j.Canonical) (hfound : ∀ n < p.limit, p.found ≠ p.form n) :
    ∃ fault, c.decode j = .error fault := by
  cases hread : c.decode j with
  | error fault => exact ⟨fault, rfl⟩
  | ok a =>
    obtain ⟨n, hn, hform, -⟩ := h.taken canonical hread
    exact absurd hform (hfound n hn)

end Codec

/-- All types with integers that are read from JSON. -/
def integerCodecs (env : Environment) : List (Σ α : Type, Codec α) :=
  ⟨_, Features.codec⟩ :: ⟨_, Opcode.codec⟩ ::
    (recordShapes env).map fun s => ⟨s.1, s.2.codec⟩

theorem Features.composed (env : Environment) : codec.Composed env :=
  .imap (fun _ => rfl) (.numbered .double)

theorem Opcode.composed (env : Environment) : codec.Composed env :=
  .imap (fun _ => rfl) (.pairAs .word8 .word8)

theorem composed_recordShapes (env : Environment) :
    ∀ s ∈ recordShapes env, s.2.codec.Composed env := by
  have hfeatures := Features.composed env
  have hopcode := Opcode.composed env
  -- the records that are parts of others
  have hnode : NodeMatch.shape.codec.Composed env :=
    .record (by simp [recordShapes, resultShapes]) (by simp [NodeMatch.shape, hfeatures])
  have haction : PathAction.shape.codec.Composed env :=
    .record (by simp [recordShapes]) (by simp [PathAction.shape, hopcode])
  have hpool : PoolStatus.shape.codec.Composed env :=
    .record (by simp [recordShapes, resultShapes]) (by simp [PoolStatus.shape])
  have hfields : ∀ s ∈ recordShapes env, ∀ f ∈ s.2.fields, f.codec.Composed env := by
    simp only [recordShapes, resultShapes, List.forall_mem_append, List.forall_mem_cons,
      List.not_mem_nil, false_imp_iff, implies_true, and_true]
    exact ⟨⟨by simp [NodeMatch.shape, hfeatures], by simp [Path.shape, haction],
        by simp [RefreshResult.shape], by simp [ActResult.shape, hfeatures],
        by simp [PoolStatus.shape], by simp [RuntimeStatus.shape, hpool],
        by simp [HandshakeResult.shape], by simp [MapInfo.shape],
        by simp [QueryResult.shape, hnode], by simp [PerceiveResult.shape, hfeatures],
        by simp [AuthResult.shape]⟩,
      by simp [PathAction.shape, hopcode], by simp [WatchDelta.shape],
      by simp [PageResult.shape, hfeatures], by simp [CompareResult.shape],
      by simp [Settings.shape]⟩
  exact fun s hs => .record hs (hfields s hs)

/-- No integer is cut off or converted. Every integer of every type that is read from JSON has its
place, at whatever depth in a value whose keys ascend. What is read holds the integer that stands at
the place, which is one of the place's range; with anything else at some place, nothing is read: no
negative or larger integer will do, no float, even of an integral value, and nothing that is not a
number. At the place of a key, it is the canonical decimal text. -/
theorem integers_as_they_stand (env : Environment) :
    ∀ d ∈ integerCodecs env, d.2.Composed env ∧
      ∀ (j : Json) (p : Place d.1), j.Canonical → d.2.HasPlace j p →
        (∀ a, d.2.decode j = .ok a →
          ∃ n < p.limit, p.found = p.form n ∧ p.held a = some n) ∧
        ((∀ n < p.limit, p.found ≠ p.form n) → ∃ fault, d.2.decode j = .error fault) := by
  refine fun d hd => ⟨?_, fun j p canonical place =>
    ⟨fun a hread => place.taken canonical hread, place.refused canonical⟩⟩
  simp only [integerCodecs, List.mem_cons, List.mem_map] at hd
  obtain rfl | rfl | ⟨s, hs, rfl⟩ := hd
  · exact Features.composed env
  · exact Opcode.composed env
  · exact composed_recordShapes env s hs

/-- The largest index of a node is read in its list; one more is not, and neither is a float. -/
theorem integers_as_they_stand_nested :
    let answer (index : Json) : Json :=
      .object [("matches", .list [.object [], .object [("index", index)]])]
    (∃ r, QueryResult.shape.codec.decode (answer (.int 4294967295)) = .ok r ∧
      (r.found[1]?.map fun m => m.index.toNat) = some 4294967295) ∧
    (∃ fault, QueryResult.shape.codec.decode (answer (.int 4294967296)) = .error fault) ∧
    ∃ fault, QueryResult.shape.codec.decode (answer (.float 7.0)) = .error fault := by
  intro answer
  let env : Environment := fun _ => none
  have hquery : (⟨_, QueryResult.shape⟩ : Σ ρ : Type, Shape ρ) ∈ recordShapes env := by
    simp [recordShapes, resultShapes]
  have hnode : (⟨_, NodeMatch.shape⟩ : Σ ρ : Type, Shape ρ) ∈ recordShapes env := by
    simp [recordShapes, resultShapes]
  have hcodec : ⟨_, QueryResult.shape.codec⟩ ∈ integerCodecs env :=
    List.mem_cons_of_mem _ (List.mem_cons_of_mem _ (List.mem_map.2 ⟨_, hquery, rfl⟩))
  let p (index : Json) : Place QueryResult :=
    (((Place.number UInt32.size UInt32.toNat index).within fun m : NodeMatch =>
      some m.index).within fun ms : List NodeMatch => ms[1]?).within fun r => some r.found
  have hplace (index : Json) : QueryResult.shape.codec.HasPlace (answer index) (p index) := by
    have hindex : NodeMatch.shape.codec.HasPlace (.object [("index", index)]) _ :=
      .field hnode List.mem_cons_self (.word32 index)
    have hsecond : [Json.object [], .object [("index", index)]][1]? =
        some (.object [("index", index)]) := rfl
    have hmatches : QueryResult.shape.codec.HasPlace (answer index) _ :=
      .field hquery List.mem_cons_self (.item hsecond hindex)
    exact hmatches
  have hcanonical (index : Json) (h : index.Canonical) : (answer index).Canonical :=
    ⟨List.pairwise_singleton _ _, ⟨⟨.nil, trivial⟩, ⟨List.pairwise_singleton _ _, h, trivial⟩,
      trivial⟩, trivial⟩
  have hfits (n : Int) (h : 0 ≤ n ∧ n ≤ 4294967296) : (Json.int n).Canonical := by
    simp only [Json.Canonical, Json.IntFits]
    omega
  obtain ⟨-, hexact⟩ := integers_as_they_stand env _ hcodec
  have hlargest := hexact _ _ (hcanonical _ (hfits 4294967295 (by decide))) (hplace _)
  have hlarger := hexact _ _ (hcanonical _ (hfits 4294967296 (by decide))) (hplace _)
  have hfloat := hexact _ _ (hcanonical (.float 7.0) rfl) (hplace _)
  obtain ⟨r, hread⟩ : ∃ r, QueryResult.shape.codec.decode (answer (.int 4294967295)) = .ok r :=
    ⟨_, rfl⟩
  obtain ⟨n, -, hfound, hheld⟩ := hlargest.1 r hread
  have hn : (4294967295 : Int) = n := Json.int.inj hfound
  refine ⟨⟨r, hread, ?_⟩, hlarger.2 fun n hn h => ?_, hfloat.2 fun n _ h => Json.noConfusion h⟩
  · obtain rfl : n = 4294967295 := by omega
    rw [Option.map_eq_bind]
    exact hheld
  · have hint : (4294967296 : Int) = n := Json.int.inj h
    have hlt : n < 4294967296 := hn
    omega

end SiteAtlas
