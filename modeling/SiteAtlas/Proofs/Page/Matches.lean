import SiteAtlas.Proofs.Codec.Acceptance
import SiteAtlas.Proofs.Codec.Defaults
import SiteAtlas.Proofs.Site.PageSet

/-!
# Lists of nodes

A result has a list of nodes, and is read if every element is a node. The list may come in another
order, nodes in it may be repeated, and all of a node but its page type may be other than it was: as
long as every element is a node, the same page types occur.
-/
namespace SiteAtlas

theorem NodeMatch.regular : shape.Regular := ⟨lawful, by decide⟩

theorem QueryResult.regular : shape.Regular := ⟨lawful, by decide⟩

namespace NodeMatch

/-- What an element of a list states as its page type, if it states one. -/
def statedType? : Json → Option Json
  | .list items => items[2]?
  | j => j.member? "page_type"

theorem pageType_of_decode {j : Json} {m : NodeMatch} (h : shape.decode j = .ok m) :
    match statedType? j with
    | none => m.pageType = 0
    | some stated => Codec.word8.decode stated = .ok m.pageType := by
  have hfield : shape.fields[2]? = some ⟨"page_type", [], .defaulted, Codec.word8, pageType,
      fun v r => { r with pageType := v }⟩ := rfl
  cases j with
  | object members =>
    have hgives := regular.decode_object_eq_ok.1 h _ (List.mem_of_getElem? hfield)
    exact hgives.of_member rfl
  | list items =>
    exact lawful.decode_getElem? (fun _ => id) regular.pairwise_name_ne h hfield
  | _ => cases h

/-- Nodes that state the same have the same page type, also if they state none. -/
theorem pageType_eq_of_stated {j k : Json} {m n : NodeMatch} (hj : shape.decode j = .ok m)
    (hk : shape.decode k = .ok n) (same : statedType? j = statedType? k) :
    m.pageType = n.pageType := by
  have hm := pageType_of_decode hj
  have hn := pageType_of_decode hk
  rw [same] at hm
  generalize statedType? k = stated at hm hn
  cases stated with
  | none => exact hm.trans hn.symm
  | some stated => exact Except.ok.inj (hm.symm.trans hn)

def typeOf? (j : Json) : Option UInt8 := (shape.decode j).toOption.map pageType

theorem typeOf?_of_decode {j : Json} {m : NodeMatch} (h : shape.decode j = .ok m) :
    typeOf? j = some m.pageType := by
  rw [typeOf?, h]
  rfl

theorem typeOf?_eq_none_iff {j : Json} : typeOf? j = none ↔ ¬∃ m, shape.decode j = .ok m := by
  cases h : shape.decode j with
  | error fault => simp [typeOf?, h, Except.toOption]
  | ok m => simp [typeOf?, h, Except.toOption]

/-- One change to a list of nodes that changes no page types. -/
inductive Variation : List Json → List Json → Prop
  | reordered {items items' : List Json} (order : items.Perm items') : Variation items items'
  | repeated {front rest : List Json} {item : Json} (listed : item ∈ front ++ rest) :
      Variation (front ++ rest) (front ++ item :: rest)
  | altered {front rest : List Json} {item item' : Json} {m m' : NodeMatch}
      (node : shape.decode item = .ok m) (node' : shape.decode item' = .ok m')
      (stated : statedType? item = statedType? item') :
      Variation (front ++ item :: rest) (front ++ item' :: rest)

/-- A node in whose object a field other than the page type has another value. -/
theorem Variation.member {front rest : List Json} {before after : List (String × Json)}
    {f : Field NodeMatch} (hf : f ∈ shape.fields) (other : f.name ≠ "page_type") {j j' : Json}
    {m : NodeMatch} (node : shape.decode (.object (before ++ (f.name, j) :: after)) = .ok m)
    {v : f.α} (value : f.codec.decode j' = .ok v) :
    Variation (front ++ .object (before ++ (f.name, j) :: after) :: rest)
      (front ++ .object (before ++ (f.name, j') :: after) :: rest) := by
  refine .altered node (regular.decode_replace hf (.inl rfl) node value) ?_
  have hne : compare "page_type" f.name ≠ .eq := fun he =>
    other (Std.LawfulEqCmp.eq_of_compare he).symm
  simp only [statedType?, Json.member?, entryAt?_append, entryAt?, if_neg hne]

theorem Variation.mem_types_iff {items items' : List Json} (h : Variation items items')
    (o : Option UInt8) : o ∈ items.map typeOf? ↔ o ∈ items'.map typeOf? := by
  cases h with
  | reordered order => exact (order.map typeOf?).mem_iff
  | @repeated front rest item listed =>
    -- what is repeated was a member before, wherever it is put
    have hitem : typeOf? item ∈ (front ++ rest).map typeOf? := List.mem_map.2 ⟨item, listed, rfl⟩
    simp only [List.map_append, List.map_cons, List.mem_append, List.mem_cons] at hitem ⊢
    constructor
    · rintro (h | h)
      · exact .inl h
      · exact .inr (.inr h)
    · rintro (h | rfl | h)
      · exact .inl h
      · exact hitem
      · exact .inr h
  | altered node node' stated =>
    have htype := pageType_eq_of_stated node node' stated
    simp only [List.map_append, List.map_cons, typeOf?_of_decode node, typeOf?_of_decode node',
      htype]

/-- Any number of changes, made or taken back. -/
theorem mem_types_iff_of_eqvGen {items items' : List Json}
    (h : Relation.EqvGen Variation items items') (o : Option UInt8) :
    o ∈ items.map typeOf? ↔ o ∈ items'.map typeOf? := by
  induction h with
  | rel items items' step => exact step.mem_types_iff o
  | refl items => rfl
  | symm items items' _ ih => exact ih.symm
  | trans items items' items'' _ _ hfirst hsecond => exact hfirst.trans hsecond

theorem map_typeOf?_of_list {items : List Json} {found : List NodeMatch}
    (h : (Codec.list shape.codec).decode (.list items) = .ok found) :
    items.map typeOf? = found.map fun m => some m.pageType := by
  obtain ⟨_, hlist, hitems⟩ := Codec.list_eq_ok.1 h
  cases hlist
  exact map_eq_map_of_ok hitems fun _ _ => typeOf?_of_decode

/-- A list that was changed is still one of nodes, with the same page types. -/
theorem exists_list_of_eqvGen {items items' : List Json} {found : List NodeMatch}
    (changes : Relation.EqvGen Variation items items')
    (h : (Codec.list shape.codec).decode (.list items) = .ok found) :
    ∃ found' : List NodeMatch, (Codec.list shape.codec).decode (.list items') = .ok found' ∧
      ∀ type, type ∈ found'.map pageType ↔ type ∈ found.map pageType := by
  have hmem := mem_types_iff_of_eqvGen changes
  have hnodes : ∀ item ∈ items', ∃ m, shape.decode item = .ok m := by
    intro item hitem
    by_contra hnone
    have hlisted : none ∈ items'.map typeOf? :=
      List.mem_map.2 ⟨item, hitem, typeOf?_eq_none_iff.2 hnone⟩
    rw [← hmem, map_typeOf?_of_list h] at hlisted
    simp at hlisted
  obtain ⟨found', hitems'⟩ := exists_map_eq_map_ok.2 hnodes
  have h' : (Codec.list shape.codec).decode (.list items') = .ok found' :=
    Codec.list_eq_ok.2 ⟨items', rfl, hitems'⟩
  refine ⟨found', h', fun type => ?_⟩
  have htype := hmem (some type)
  rw [map_typeOf?_of_list h, map_typeOf?_of_list h'] at htype
  simpa using htype.symm

end NodeMatch

namespace QueryResult

/-- The nodes that are found in an object are those of its list, one by one. -/
theorem decode_object_eq_ok {members : List (String × Json)} {found : List NodeMatch}
    (distinct : members.Pairwise fun m n => m.1 ≠ n.1) :
    shape.decode (.object members) = .ok ⟨found⟩ ↔
      match (Json.object members).member? "matches" with
      | none => found = []
      | some j => ∃ items, j = .list items ∧ items.map NodeMatch.shape.decode = found.map .ok := by
  rw [regular.decode_object_eq_ok]
  simp only [shape, List.forall_mem_cons, List.not_mem_nil, false_imp_iff, implies_true, and_true]
  rw [Field.valuesIn_eq_toList rfl distinct, Field.gives_toList_iff]
  cases (Json.object members).member? "matches" with
  | none => simp
  | some j => exact Codec.list_eq_ok

theorem decode_list_eq_ok {j : Json} {answer : QueryResult} :
    shape.decode (.list [j]) = .ok answer ↔
      (Codec.list NodeMatch.shape.codec).decode j = .ok answer.found := by
  have hdecode : shape.decode (.list [j]) =
      ((Codec.list NodeMatch.shape.codec).decode j).map QueryResult.mk >>= .ok := rfl
  obtain ⟨found⟩ := answer
  rw [hdecode, bind_eq_ok]
  simp [map_eq_ok]

def types (answer : QueryResult) : PageSet := .ofList (answer.found.map NodeMatch.pageType)

theorem types_eq_of_mem {answer answer' : QueryResult}
    (h : ∀ type, type ∈ answer'.found.map NodeMatch.pageType ↔
      type ∈ answer.found.map NodeMatch.pageType) : answer'.types = answer.types := by
  ext type
  rw [types, types, PageSet.mem_ofList, PageSet.mem_ofList, h]

/-- A result, and the same one with its list of nodes changed. -/
inductive Varied : Json → Json → Prop
  | same (value : Json) : Varied value value
  | object {front rest : List (String × Json)} {items items' : List Json}
      (changes : Relation.EqvGen NodeMatch.Variation items items') :
      Varied (.object (front ++ ("matches", .list items) :: rest))
        (.object (front ++ ("matches", .list items') :: rest))
  | list {items items' : List Json} (changes : Relation.EqvGen NodeMatch.Variation items items') :
      Varied (.list [.list items]) (.list [.list items'])

/-- A result that was changed is still read, with the same page types. -/
theorem Varied.exists_decode {value value' : Json} (h : Varied value value') {answer : QueryResult}
    (hread : shape.decode value.orEmpty = .ok answer) :
    ∃ answer', shape.decode value'.orEmpty = .ok answer' ∧ answer'.types = answer.types := by
  cases h with
  | same value => exact ⟨answer, hread, rfl⟩
  | @object front rest items items' changes =>
    have hread : shape.decode (.object (front ++ ("matches", .list items) :: rest)) = .ok answer :=
      hread
    have hfield : _ ∈ shape.fields := List.mem_cons_self
    have hmember : ("matches", Json.list items) ∈ front ++ ("matches", .list items) :: rest := by
      simp
    have hlist := (regular.decode_object_eq_ok.1 hread _ hfield).decode_of_mem
      (Field.mem_valuesIn.2 ⟨"matches", hmember, .inl rfl⟩)
    obtain ⟨found', hfound', htypes⟩ := NodeMatch.exists_list_of_eqvGen changes hlist
    exact ⟨_, regular.decode_replace hfield (.inl rfl) hread hfound', types_eq_of_mem htypes⟩
  | list changes =>
    obtain ⟨found', hfound', htypes⟩ :=
      NodeMatch.exists_list_of_eqvGen changes (decode_list_eq_ok.1 hread)
    exact ⟨⟨found'⟩, decode_list_eq_ok.2 hfound', types_eq_of_mem htypes⟩

end QueryResult

end SiteAtlas
