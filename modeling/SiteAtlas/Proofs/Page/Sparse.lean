import SiteAtlas.Proofs.Page.Features
import SiteAtlas.Proofs.Table

/-!
# Feature vectors and the values given to them

A vector holds the last value that each dimension was given, whether in the list that it was made of
or set later. Its dense form has a place for each of 128 dimensions. Dimensions beyond them are held
like all others, but they leave the dense form as it is.
-/
namespace SiteAtlas.Features

/-- A value that is set counts as if it stood at the end of the list. -/
theorem insert_ofList (pairs : List (UInt8 × Float)) (d : UInt8) (x : Float) :
    (ofList pairs).insert d x = ofList (pairs ++ [(d, x)]) := by
  refine congrArg mk (Table.ext ?_)
  change putEntry d x (sortEntries pairs) = sortEntries (pairs ++ [(d, x)])
  rw [sortEntries, sortEntries, List.foldl_append]
  rfl

theorem foldl_insert_ofList (start inserts : List (UInt8 × Float)) :
    inserts.foldl (fun f e => f.insert e.1 e.2) (ofList start) = ofList (start ++ inserts) := by
  induction inserts generalizing start with
  | nil => rw [List.foldl_nil, List.append_nil]
  | cons e inserts ih =>
    rw [List.foldl_cons, insert_ofList, ih, List.append_assoc]
    rfl

theorem length_foldl_set (es : List (UInt8 × Float)) (slots : List Float) :
    (es.foldl (fun slots e => slots.set e.1.toNat e.2) slots).length = slots.length := by
  induction es generalizing slots with
  | nil => rfl
  | cons e es ih => rw [List.foldl_cons, ih, List.length_set]

/-- A place has the last value that is set there. -/
theorem getElem?_foldl_set (es : List (UInt8 × Float)) {slots : List Float} {d : UInt8}
    (h : d.toNat < slots.length) :
    (es.foldl (fun slots e => slots.set e.1.toNat e.2) slots)[d.toNat]? =
      (entryAt? d es.reverse).or slots[d.toNat]? := by
  induction es generalizing slots with
  | nil => rfl
  | cons e es ih =>
    obtain ⟨k, x⟩ := e
    have hset : (slots.set k.toNat x)[d.toNat]? = (entryAt? d [(k, x)]).or slots[d.toNat]? := by
      by_cases hkey : d = k
      · subst hkey
        simp [h]
      · have hplace : k.toNat ≠ d.toNat := fun heq => hkey (UInt8.toNat_inj.1 heq).symm
        simp [entryAt?_cons_of_ne hkey, hplace]
    rw [List.foldl_cons, ih (by rwa [List.length_set]), hset, List.reverse_cons, entryAt?_append,
      Option.or_assoc]

theorem length_dense (f : Features) : f.dense.length = 128 := by
  rw [dense, length_foldl_set]
  rfl

theorem getElem?_dense (f : Features) {d : UInt8} (h : d.toNat < 128) :
    f.dense[d.toNat]? = some (f.get d) := by
  have hlength : d.toNat < (List.replicate featureDimensions (0.0 : Float)).length := h
  have hheld : entryAt? d f.toList.reverse = f.table.get? d := by
    rw [← entryAt?_sortEntries, toList, sortEntries_eq_self f.table.ascending, Table.get?]
  have hzero : (List.replicate featureDimensions (0.0 : Float))[d.toNat]? = some 0.0 :=
    List.getElem?_replicate_of_lt h
  rw [dense, getElem?_foldl_set _ hlength, hheld, hzero, get]
  cases f.table.get? d <;> rfl

/-- The dense form is known from the dimensions that have a place in it. -/
theorem dense_congr {f g : Features} (h : ∀ d : UInt8, d.toNat < 128 → f.get d = g.get d) :
    f.dense = g.dense := by
  refine List.ext_getElem? fun i => ?_
  by_cases hi : i < 128
  · have hd : (UInt8.ofNat i).toNat = i := UInt8.toNat_ofNat_of_lt' (hi.trans (by decide))
    rw [← hd, f.getElem?_dense (by omega), g.getElem?_dense (by omega), h _ (by omega)]
  · rw [List.getElem?_eq_none (by rw [length_dense]; omega),
      List.getElem?_eq_none (by rw [length_dense]; omega)]

theorem get_ofList_of_last {given : List (UInt8 × Float)} {d : UInt8} {x : Float}
    (h : LastOf Prod.fst given (d, x)) : (ofList given).get d = x := by
  rw [get, ofList, Table.get?_ofList_eq_some.2 h, Option.getD_some]

theorem get_ofList_of_not_mem {given : List (UInt8 × Float)} {d : UInt8}
    (h : d ∉ given.map Prod.fst) : (ofList given).get d = 0.0 := by
  have hnone : (Table.ofList given).get? d = none := by
    rw [← Option.not_isSome_iff_eq_none, Table.isSome_get?_ofList_iff]
    rintro ⟨e, he, rfl⟩
    exact h (List.mem_map_of_mem he)
  rw [get, ofList, hnone, Option.getD_none]

theorem mem_toList_ofList {given : List (UInt8 × Float)} {d : UInt8} {x : Float} :
    (d, x) ∈ (ofList given).toList ↔ LastOf Prod.fst given (d, x) := by
  rw [toList, Table.mem_entries_iff, ofList, Table.get?_ofList_eq_some]

/-- A vector that is made of a list and then changed by setting dimensions holds the last value that
each dimension was given, and no others. The dimensions held are listed in ascending order. The
dense form has 128 places with the values of the dimensions below 128, and setting any other
dimension leaves it as it is. -/
theorem holds_last_values (start inserts : List (UInt8 × Float)) :
    let f := inserts.foldl (fun f e => f.insert e.1 e.2) (ofList start)
    let given := start ++ inserts
    (∀ d x, LastOf Prod.fst given (d, x) → f.get d = x) ∧
    (∀ d, d ∉ given.map Prod.fst → f.get d = 0.0) ∧
    f.size = (given.map Prod.fst).toFinset.card ∧
    (∀ d x, (d, x) ∈ f.toList ↔ LastOf Prod.fst given (d, x)) ∧
    f.toList.Pairwise (fun e g => e.1 < g.1) ∧
    f.dense.length = 128 ∧
    (∀ d : UInt8, d.toNat < 128 → f.dense[d.toNat]? = some (f.get d)) ∧
    ∀ (d : UInt8) (x : Float), 128 ≤ d.toNat → (f.insert d x).dense = f.dense := by
  intro f given
  have hf : f = ofList given := foldl_insert_ofList start inserts
  refine ⟨fun d x hlast => ?_, fun d hd => ?_, ?_, fun d x => ?_, f.pairwise_toList,
    f.length_dense, fun d => f.getElem?_dense, fun d x hd => ?_⟩
  · rw [hf, get_ofList_of_last hlast]
  · rw [hf, get_ofList_of_not_mem hd]
  · rw [hf, size, ofList, Table.size_ofList]
  · rw [hf, mem_toList_ofList]
  · refine dense_congr fun other hother => get_insert_of_ne f x ?_
    rintro rfl
    omega

/-- A dimension that is given again in the list, one beyond the dense form that is set again, and
one that was never given. -/
theorem holds_last_values_repeated :
    let f := ((ofList [(3, 1.5), (200, 2.5), (3, 0.25)]).insert 200 4.0).insert 7 0.5
    f.size = 3 ∧ f.get 3 = 0.25 ∧ (200, 4.0) ∈ f.toList ∧ f.get 9 = 0.0 ∧
      f.dense[3]? = some 0.25 ∧ (f.insert 255 1.5).dense = f.dense := by
  intro f
  obtain ⟨hget, habsent, hsize, hmem, -, -, hdense, hbeyond⟩ :=
    holds_last_values [(3, 1.5), (200, 2.5), (3, 0.25)] [(200, 4.0), (7, 0.5)]
  have hthree : f.get 3 = 0.25 :=
    hget 3 0.25 ⟨[(3, 1.5), (200, 2.5)], [(200, 4.0), (7, 0.5)], rfl, by decide⟩
  refine ⟨hsize.trans (by decide), hthree, (hmem 200 4.0).2 ?_, habsent 9 (by decide), ?_,
    hbeyond 255 1.5 (by decide)⟩
  · exact ⟨[(3, 1.5), (200, 2.5), (3, 0.25)], [(7, 0.5)], rfl, by decide⟩
  · rw [← hthree]
    exact hdense 3 (by decide)

end SiteAtlas.Features
