import SiteAtlas.Proofs.Codec.ReadBack
import SiteAtlas.Proofs.Json.Numerals
import SiteAtlas.Proofs.Table

/-!
# What codecs accept

For each codec, from which JSON values it reads which values. An integer is read from the integer
that it is and from nothing else, a key of a table from its own text, and containers from containers
of what is accepted.
-/
namespace SiteAtlas

/-- The double that a number stands for; other values are no numbers. -/
def Json.number? : Json → Option Float
  | .int n => some (Float.ofInt n)
  | .float x => some x
  | _ => none

namespace Codec

variable {α β κ : Type} {j : Json}

theorem text_eq_ok {s : String} : text.decode j = .ok s ↔ j = .text s := by
  cases j <;> simp [text, textAs, refuse]

theorem double_eq_ok {x : Float} : double.decode j = .ok x ↔ j.number? = some x := by
  cases j <;> simp [double, refuse, Json.number?]

theorem natBelow_eq_ok {want : String} {limit n : Nat} :
    (natBelow want limit).decode j = .ok n ↔ j = .int n ∧ n < limit := by
  cases j with
  | int i =>
    by_cases h : 0 ≤ i ∧ i < limit
    · simp only [natBelow, if_pos h, Except.ok.injEq, Json.int.injEq]
      omega
    · simp only [natBelow, if_neg h, reduceCtorEq, Json.int.injEq, false_iff]
      omega
  | _ => simp [natBelow, refuse]

/-- A word is a natural number below its size. -/
theorem word_eq_ok {want : String} {size : Nat} {ofNat : Nat → α} {toNat : α → Nat}
    (hof : ∀ a, ofNat (toNat a) = a) (hto : ∀ n < size, toNat (ofNat n) = n)
    (hlt : ∀ a, toNat a < size) {a : α} :
    ((natBelow want size).imap ofNat toNat).decode j = .ok a ↔ j = .int (toNat a) := by
  refine map_eq_ok.trans ⟨?_, fun h => ⟨toNat a, natBelow_eq_ok.2 ⟨h, hlt a⟩, hof a⟩⟩
  rintro ⟨n, hn, rfl⟩
  obtain ⟨rfl, hsize⟩ := natBelow_eq_ok.1 hn
  rw [hto n hsize]

theorem word8_eq_ok {n : UInt8} : word8.decode j = .ok n ↔ j = .int n.toNat :=
  word_eq_ok (fun _ => UInt8.ofNat_toNat) (fun _ => UInt8.toNat_ofNat_of_lt') UInt8.toNat_lt_size

theorem word16_eq_ok {n : UInt16} : word16.decode j = .ok n ↔ j = .int n.toNat :=
  word_eq_ok (fun _ => UInt16.ofNat_toNat) (fun _ => UInt16.toNat_ofNat_of_lt')
    UInt16.toNat_lt_size

theorem word32_eq_ok {n : UInt32} : word32.decode j = .ok n ↔ j = .int n.toNat :=
  word_eq_ok (fun _ => UInt32.ofNat_toNat) (fun _ => UInt32.toNat_ofNat_of_lt')
    UInt32.toNat_lt_size

theorem word64_eq_ok {n : UInt64} : word64.decode j = .ok n ↔ j = .int n.toNat :=
  word_eq_ok (fun _ => UInt64.ofNat_toNat) (fun _ => UInt64.toNat_ofNat_of_lt')
    UInt64.toNat_lt_size

theorem optional_eq_ok {c : Codec α} {o : Option α} :
    (optional c).decode j = .ok o ↔
      j = .null ∧ o = none ∨ j ≠ .null ∧ ∃ a, c.decode j = .ok a ∧ some a = o := by
  cases j with
  | null => simp [optional, eq_comm]
  | _ => simp [optional, map_eq_ok]

/-- If null has no value of its own, an optional value is the one that is read, if one is. -/
theorem toOption_of_optional {c : Codec α} (hnull : ∀ a, c.decode .null ≠ .ok a) {o : Option α}
    (h : (optional c).decode j = .ok o) : (c.decode j).toOption = o := by
  rcases optional_eq_ok.1 h with ⟨rfl, rfl⟩ | ⟨-, a, ha, rfl⟩
  · cases hread : c.decode .null with
    | error fault => rfl
    | ok a => exact absurd hread (hnull a)
  · rw [ha]
    rfl

theorem list_eq_ok {c : Codec α} {as : List α} :
    (list c).decode j = .ok as ↔ ∃ js, j = .list js ∧ js.map c.decode = as.map .ok := by
  cases j <;> simp [list, refuse, mapM_eq_ok_iff]

theorem getElem?_of_list {c : Codec α} {js : List Json} {as : List α}
    (h : (list c).decode (.list js) = .ok as) {i : Nat} (hj : js[i]? = some j) :
    ∃ a, as[i]? = some a ∧ c.decode j = .ok a := by
  obtain ⟨_, hjs, hmap⟩ := list_eq_ok.1 h
  cases hjs
  have hi : (js.map c.decode)[i]? = (as.map Except.ok)[i]? := by rw [hmap]
  rw [List.getElem?_map, List.getElem?_map, hj] at hi
  obtain ⟨a, ha, hread⟩ := Option.map_eq_some_iff.1 hi.symm
  exact ⟨a, ha, hread.symm⟩

theorem pairAs_eq_ok {want wantLength : String} {c : Codec α} {d : Codec β} {p : α × β} :
    (pairAs want wantLength c d).decode j = .ok p ↔
      ∃ x y, j = .list [x, y] ∧ c.decode x = .ok p.1 ∧ d.decode y = .ok p.2 := by
  cases j with
  | list js =>
    match js with
    | [] => simp [pairAs]
    | [x] => simp [pairAs, bind_eq_ok]
    | [x, y] => simp [pairAs, bind_eq_ok, pure, Except.pure, Prod.ext_iff]
    | x :: y :: z :: rest => simp [pairAs, bind_eq_ok]
  | _ => simp [pairAs, refuse]

/-- A key is read from the text that is written for it, and from no other. -/
def Key.Exact (key : Key κ) : Prop := ∀ s k, key.read s = .ok k ↔ s = key.write k

theorem Key.exact_name : Key.name.Exact := fun s k => by simp [name]

/-- What is read as a byte is a number that starts as one, to the end. -/
theorem Key.number_of_byte {s : String} {b : UInt8} (h : byte.read s = .ok b) :
    Json.number (Utf8.encode s.toList) = .ok (.int b.toNat, []) := by
  simp only [byte] at h
  generalize Utf8.encode s.toList = bytes at h ⊢
  cases bytes with
  | nil =>
    obtain ⟨_, hthrow, -⟩ := bind_eq_ok.1 h
    cases hthrow
  | cons d ds =>
    dsimp only at h
    split at h
    · obtain ⟨_, hthrow, -⟩ := bind_eq_ok.1 h
      cases hthrow
    · -- what is left are the three ways to go on from the number that the text starts with
      cases hnumber : Json.number (d :: ds) with
      | error e =>
        rw [hnumber] at h
        cases h
      | ok parsed =>
        obtain ⟨j, rest⟩ := parsed
        cases hword : word8.decode j with
        | error fault =>
          simp only [hnumber, hword] at h
          cases h
        | ok c =>
          simp only [hnumber, hword] at h
          split at h
          · rename_i hrest
            cases h
            rw [word8_eq_ok.1 hword, List.isEmpty_iff.1 hrest]
          · cases h

theorem Key.exact_byte : Key.byte.Exact := by
  refine fun s b => ⟨fun h => ?_, fun h => h ▸ lawful_byte b⟩
  have hbytes := Json.number_eq_int (number_of_byte h)
  rw [List.append_nil] at hbytes
  have hchars : s.toList = Json.natDigits b.toNat := Utf8.encode_injective hbytes
  rw [← String.toList_inj, hchars]
  simp [byte, Json.natDigits]

theorem Key.Exact.lawful {key : Key κ} (h : key.Exact) : key.Lawful := fun k => (h _ k).2 rfl

def readEntry (key : Key κ) (c : Codec α) (m : String × Json) : Except Fault (κ × α) := do
  let k ← key.read m.1
  let a ← c.decode m.2
  return (k, a)

theorem readEntry_eq_ok {key : Key κ} (hkey : key.Exact) {c : Codec α} {m : String × Json}
    {e : κ × α} :
    readEntry key c m = .ok e ↔ m.1 = key.write e.1 ∧ c.decode m.2 = .ok e.2 := by
  simp [readEntry, bind_eq_ok, pure, Except.pure, hkey _ _, Prod.ext_iff]

variable [Ord κ] [Std.TransOrd κ] [Std.LawfulEqOrd κ]

theorem readMembers_eq (key : Key κ) (c : Codec α) (ms : List (String × Json)) (t : Table κ α) :
    readMembers key c ms t =
      (ms.mapM (readEntry key c)).map fun es => es.foldl (fun t e => t.insert e.1 e.2) t := by
  induction ms generalizing t with
  | nil => rfl
  | cons m ms ih =>
    rw [readMembers, List.mapM_cons, readEntry]
    cases key.read m.1 with
    | error fault => rfl
    | ok k =>
      cases c.decode m.2 with
      | error fault => rfl
      | ok a =>
        refine (ih (t.insert k a)).trans ?_
        cases ms.mapM (readEntry key c) <;> rfl

theorem entries_foldl_insert (es : List (κ × α)) (t : Table κ α) :
    (es.foldl (fun t e => t.insert e.1 e.2) t).entries =
      es.foldl (fun sorted e => putEntry e.1 e.2 sorted) t.entries := by
  induction es generalizing t with
  | nil => rfl
  | cons e es ih => exact ih (t.insert e.1 e.2)

/-- A table is read from an object, entry by entry. -/
theorem table_eq_ok {key : Key κ} {c : Codec α} {t : Table κ α} :
    (table key c).decode j = .ok t ↔
      ∃ ms es, j = .object ms ∧ ms.map (readEntry key c) = es.map .ok ∧ Table.ofList es = t := by
  have hlist (es : List (κ × α)) :
      es.foldl (fun t e => t.insert e.1 e.2) Table.empty = Table.ofList es :=
    Table.ext (entries_foldl_insert es .empty)
  cases j with
  | object ms => simp [table, readMembers_eq, map_eq_ok, mapM_eq_ok_iff, hlist]
  | _ => simp [table, refuse]

section Distinct

variable {key : Key κ} {c : Codec α} {ms : List (String × Json)} {t : Table κ α}

/-- If no key occurs twice, the table has one entry for each member. -/
theorem entries_of_table (hkey : key.Exact) (distinct : ms.Pairwise fun m n => m.1 ≠ n.1)
    (h : (table key c).decode (.object ms) = .ok t) :
    ∃ es, ms.map (readEntry key c) = es.map .ok ∧ (es.Pairwise fun e f => e.1 ≠ f.1) ∧
      ms.map Prod.fst = es.map (fun e => key.write e.1) ∧ Table.ofList es = t ∧
      t.entries.Perm es := by
  obtain ⟨_, es, hms, hes, rfl⟩ := table_eq_ok.1 h
  cases hms
  have hnames : ms.map Prod.fst = es.map fun e => key.write e.1 :=
    map_eq_map_of_ok hes fun m e he => ((readEntry_eq_ok hkey).1 he).1
  -- each key has one text, so keys are told apart as their texts are
  have hdistinct : es.Pairwise fun e f => e.1 ≠ f.1 := by
    have hwritten : (es.map fun e => key.write e.1).Pairwise (· ≠ ·) := by
      rw [← hnames]
      exact List.pairwise_map.2 distinct
    refine (List.pairwise_map.1 hwritten).imp fun hne heq => hne ?_
    rw [heq]
  exact ⟨es, hes, hdistinct, hnames, rfl, perm_sortEntries hdistinct⟩

theorem size_of_table (hkey : key.Exact) (distinct : ms.Pairwise fun m n => m.1 ≠ n.1)
    (h : (table key c).decode (.object ms) = .ok t) : t.size = ms.length := by
  obtain ⟨es, -, -, hnames, -, hperm⟩ := entries_of_table hkey distinct h
  have hlength := congrArg List.length hnames
  rw [List.length_map, List.length_map] at hlength
  exact hperm.length_eq.trans hlength.symm

/-- The value at a key is that of the member with the key's name. -/
theorem get?_of_table (hkey : key.Exact) (distinct : ms.Pairwise fun m n => m.1 ≠ n.1)
    (h : (table key c).decode (.object ms) = .ok t) {k : κ} {a : α} :
    t.get? k = some a ↔ ∃ j, (Json.object ms).member? (key.write k) = some j ∧
      c.decode j = .ok a := by
  obtain ⟨es, hes, hdistinct, -, rfl, -⟩ := entries_of_table hkey distinct h
  have hreverse : es.reverse.Pairwise fun e f => e.1 ≠ f.1 :=
    List.pairwise_reverse.2 (hdistinct.imp fun hne => hne.symm)
  rw [Table.get?_ofList, entryAt?_eq_some_iff hreverse, List.mem_reverse,
    mem_of_map_eq_map_ok hes]
  simp only [readEntry_eq_ok hkey, Json.member?, entryAt?_eq_some_iff distinct, Prod.exists]
  constructor
  · rintro ⟨_, j, hmem, rfl, ha⟩
    exact ⟨j, hmem, ha⟩
  · rintro ⟨j, hmem, ha⟩
    exact ⟨_, j, hmem, rfl, ha⟩

/-- Every member gives the table an entry. -/
theorem entry_of_member (hkey : key.Exact) (distinct : ms.Pairwise fun m n => m.1 ≠ n.1)
    (h : (table key c).decode (.object ms) = .ok t) {m : String × Json} (hm : m ∈ ms) :
    ∃ k a, m.1 = key.write k ∧ c.decode m.2 = .ok a ∧ t.get? k = some a := by
  obtain ⟨_, es, hms, hes, -⟩ := table_eq_ok.1 h
  cases hms
  obtain ⟨e, he⟩ := exists_map_eq_map_ok.1 ⟨es, hes⟩ m hm
  obtain ⟨hname, ha⟩ := (readEntry_eq_ok hkey).1 he
  have hmember : (Json.object ms).member? (key.write e.1) = some m.2 :=
    (entryAt?_eq_some_iff distinct).2 (hname ▸ hm)
  exact ⟨e.1, e.2, hname, ha, (get?_of_table hkey distinct h).2 ⟨m.2, hmember, ha⟩⟩

theorem value_of_member (hkey : key.Exact) (distinct : ms.Pairwise fun m n => m.1 ≠ n.1)
    (h : (table key c).decode (.object ms) = .ok t) {k : κ} (hm : (key.write k, j) ∈ ms) :
    ∃ a, c.decode j = .ok a ∧ t.get? k = some a := by
  obtain ⟨l, a, hname, ha, hget⟩ := entry_of_member hkey distinct h hm
  obtain rfl : k = l := hkey.lawful.injective hname
  exact ⟨a, ha, hget⟩

/-- A table is written with the keys that it was read with. -/
theorem keys_of_table (hkey : key.Exact) (ascending : Ascending ms)
    (h : (table key c).decode (.object ms) = .ok t) :
    ∃ written, (table key c).encode t = .object written ∧
      written.map Prod.fst = ms.map Prod.fst := by
  obtain ⟨es, -, hdistinct, hnames, -, hperm⟩ :=
    entries_of_table hkey (pairwise_ne_of_ascending ascending) h
  let member (e : κ × α) : String × Json := (key.write e.1, c.encode e.2)
  have hne : (t.entries.map member).Pairwise fun m n => m.1 ≠ n.1 := by
    refine List.pairwise_map.2 ((pairwise_ne_of_ascending t.ascending).imp fun hne heq => ?_)
    exact hne (hkey.lawful.injective heq)
  refine ⟨sortEntries (t.entries.map member), rfl, ?_⟩
  refine map_fst_eq_of_perm (ascending_sortEntries _) ascending ?_
  have hmembers : (sortEntries (t.entries.map member)).Perm (es.map member) :=
    (perm_sortEntries hne).trans (hperm.map member)
  rw [hnames]
  simpa [member, Function.comp_def] using hmembers.map Prod.fst

end Distinct

end Codec

end SiteAtlas
