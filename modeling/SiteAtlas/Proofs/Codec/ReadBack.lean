import SiteAtlas.Codec.Basic
import SiteAtlas.Proofs.Accepted
import SiteAtlas.Proofs.Json.Members
import SiteAtlas.Proofs.Json.Numbers

/-!
# Values read back

A codec reads a value back if it reads what it writes for the value as the value itself. Containers
read back what consists of values that are read back; a double is read back if and only if it is
finite.
-/
namespace SiteAtlas.Codec

variable {α β κ : Type}

/-- What is written for the value is read as the value. -/
def ReadsBack (c : Codec α) (a : α) : Prop := c.decode (c.encode a) = .ok a

theorem ReadsBack.imap {c : Codec α} {make : α → β} {back : β → α} {b : β}
    (h : c.ReadsBack (back b)) (inverse : make (back b) = b) : (c.imap make back).ReadsBack b := by
  rw [ReadsBack] at h
  simp [ReadsBack, Codec.imap, h, inverse, Except.map]

@[simp] theorem readsBack_any (j : Json) : any.ReadsBack j := rfl

@[simp] theorem readsBack_bool (b : Bool) : bool.ReadsBack b := rfl

@[simp] theorem readsBack_textAs (want s : String) : (textAs want).ReadsBack s := rfl

@[simp] theorem readsBack_text (s : String) : text.ReadsBack s := rfl

/-- Only finite doubles have a number. -/
@[simp] theorem readsBack_double_iff {x : Float} :
    double.ReadsBack x ↔ Decimal.isFinite x = true := by
  by_cases h : Decimal.isFinite x = true <;> simp [ReadsBack, double, h, refuse]

theorem readsBack_natBelow (want : String) {limit n : Nat} (h : n < limit) :
    (natBelow want limit).ReadsBack n := by
  have hn : 0 ≤ (n : Int) ∧ (n : Int) < limit := by omega
  simp only [ReadsBack, natBelow, if_pos hn, Int.toNat_natCast]

@[simp] theorem readsBack_word8 (n : UInt8) : word8.ReadsBack n :=
  (readsBack_natBelow "u8" n.toNat_lt_size).imap UInt8.ofNat_toNat

@[simp] theorem readsBack_word16 (n : UInt16) : word16.ReadsBack n :=
  (readsBack_natBelow "u16" n.toNat_lt_size).imap UInt16.ofNat_toNat

@[simp] theorem readsBack_word32 (n : UInt32) : word32.ReadsBack n :=
  (readsBack_natBelow "u32" n.toNat_lt_size).imap UInt32.ofNat_toNat

@[simp] theorem readsBack_word64 (n : UInt64) : word64.ReadsBack n :=
  (readsBack_natBelow "u64" n.toNat_lt_size).imap UInt64.ofNat_toNat

/-- A missing value is told from a value that is there, since no value that is there is null. -/
theorem readsBack_optional {c : Codec α} {o : Option α}
    (h : ∀ a ∈ o, c.ReadsBack a ∧ c.encode a ≠ .null) : (optional c).ReadsBack o := by
  cases o with
  | none => rfl
  | some a =>
    obtain ⟨hback, hnull⟩ := h a rfl
    rw [ReadsBack] at hback ⊢
    simp only [optional]
    cases hj : c.encode a with
    | null => exact absurd hj hnull
    | _ => rw [← hj, hback]; rfl

@[simp] theorem readsBack_optional_text (o : Option String) : (optional text).ReadsBack o :=
  readsBack_optional fun s _ => ⟨readsBack_text s, by simp [text, textAs]⟩

theorem readsBack_optional_double {o : Option Float} (h : ∀ x ∈ o, Decimal.isFinite x = true) :
    (optional double).ReadsBack o :=
  readsBack_optional fun x hx => ⟨readsBack_double_iff.2 (h x hx), by simp [double, h x hx]⟩

@[simp] theorem readsBack_list {c : Codec α} {xs : List α} (h : ∀ a ∈ xs, c.ReadsBack a) :
    (list c).ReadsBack xs := by
  have hmap : (xs.map c.encode).mapM c.decode = xs.mapM fun a => c.decode (c.encode a) :=
    List.mapM_map
  have hread : xs.mapM (fun a => c.decode (c.encode a)) = .ok (xs.map id) := mapM_eq_ok h
  exact hmap.trans (hread.trans (by rw [List.map_id]))

theorem readsBack_pairAs (want wantLength : String) {c : Codec α} {d : Codec β} {p : α × β}
    (hc : c.ReadsBack p.1) (hd : d.ReadsBack p.2) :
    (pairAs want wantLength c d).ReadsBack p := by
  rw [ReadsBack] at hc hd
  simp [ReadsBack, pairAs, hc, hd, bind, Except.bind, pure, Except.pure]

def Key.Lawful (key : Key κ) : Prop := ∀ k, key.read (key.write k) = .ok k

theorem Key.lawful_name : Key.name.Lawful := fun _ => rfl

/-- The decimal text of a byte is a JSON number, and nothing is left of it. -/
theorem Key.lawful_byte : Key.byte.Lawful := by
  intro b
  have hsize : b.toNat < 256 := b.toNat_lt_size
  have hfits : Json.IntFits b.toNat := ⟨by omega, by omega⟩
  have hends : Json.EndsNumber [] := trivial
  have hnumber : Json.number (Utf8.encode (Json.natDigits b.toNat) ++ []) =
      .ok (.int b.toNat, []) := Json.number_intText hfits hends
  have hword : word8.decode (.int b.toNat) = .ok b := readsBack_word8 b
  have htext : (toString b.toNat).toList = Json.natDigits b.toNat := by simp [Json.natDigits]
  rw [List.append_nil] at hnumber
  simp only [byte, htext]
  cases hds : Utf8.encode (Json.natDigits b.toNat) with
  | nil =>
    rw [hds] at hnumber
    cases hnumber
  | cons d ds =>
    have hd : Json.isDigit d = true :=
      Json.isDigit_of_mem_encode_natDigits (n := b.toNat) (hds ▸ List.mem_cons_self)
    rw [hds] at hnumber
    simp [hd, hnumber, hword, pure, Except.pure]

def Key.named (all : List κ) (name : κ → String) : Key κ where
  write := name
  read s :=
    match all.find? (name · = s) with
    | some k => .ok k
    | none => .error (.unknownVariant s (all.map name))

theorem Key.lawful_named {all : List κ} {name : κ → String}
    (h : ∀ k, all.find? (name · = name k) = some k) : (Key.named all name).Lawful := by
  intro k
  simp only [named, h k]

def word (key : Key κ) : Codec κ where
  encode k := .text (key.write k)
  decode
    | .text s => key.read s
    | j => refuse j "a string"

theorem readsBack_word {key : Key κ} (h : key.Lawful) (k : κ) : (word key).ReadsBack k := h k

theorem Key.Lawful.injective {key : Key κ} (h : key.Lawful) {k l : κ}
    (hwrite : key.write k = key.write l) : k = l := by
  have hk := h k
  rw [hwrite, h l] at hk
  cases hk
  rfl

section Table

variable [Ord κ] [Std.TransOrd κ] [Std.LawfulEqOrd κ]

/-- Members that are written for entries of a table give these entries, in whatever order they
stand; all other keys stay as they are. -/
theorem readMembers_written {key : Key κ} (hkey : key.Lawful) {c : Codec α} (t : Table κ α)
    {members : List (String × Json)}
    (h : ∀ m ∈ members, ∃ k a, t.get? k = some a ∧ c.ReadsBack a ∧
      m = (key.write k, c.encode a)) (acc : Table κ α) :
    ∃ u, readMembers key c members acc = .ok u ∧
      (∀ k, key.write k ∈ members.map Prod.fst → u.get? k = t.get? k) ∧
      ∀ k, key.write k ∉ members.map Prod.fst → u.get? k = acc.get? k := by
  induction members generalizing acc with
  | nil => exact ⟨acc, rfl, fun k hk => by simp at hk, fun k _ => rfl⟩
  | cons m rest ih =>
    obtain ⟨k, a, hget, hback, rfl⟩ := h m List.mem_cons_self
    obtain ⟨u, hread, hin, hout⟩ :=
      ih (fun m hm => h m (List.mem_cons_of_mem _ hm)) (acc.insert k a)
    rw [ReadsBack] at hback
    refine ⟨u, ?_, fun l hl => ?_, fun l hl => ?_⟩
    · simp [readMembers, hkey k, hback, hread, bind, Except.bind]
    · by_cases hrest : key.write l ∈ rest.map Prod.fst
      · exact hin l hrest
      · -- the key read just now, which no later member has
        have hwrite : key.write l = key.write k := by
          rcases List.mem_cons.1 hl with hl | hl
          · exact hl
          · exact absurd hl hrest
        obtain rfl := hkey.injective hwrite
        rw [hout l hrest, Table.get?_insert_self, hget]
    · obtain ⟨hne, hrest⟩ := not_or.1 (mt List.mem_cons.2 hl)
      rw [hout l hrest]
      refine Table.get?_insert_of_ne acc a ?_
      rintro rfl
      exact hne rfl

/-- Every entry of a table keeps its key and its value. -/
theorem readsBack_table {key : Key κ} (hkey : key.Lawful) {c : Codec α} {t : Table κ α}
    (h : ∀ e ∈ t.entries, c.ReadsBack e.2) : (table key c).ReadsBack t := by
  let written := t.entries.map fun e => (key.write e.1, c.encode e.2)
  have hmembers : ∀ m ∈ sortEntries written, ∃ k a, t.get? k = some a ∧ c.ReadsBack a ∧
      m = (key.write k, c.encode a) := by
    intro m hm
    obtain ⟨e, he, rfl⟩ := List.mem_map.1 (mem_of_mem_sortEntries hm)
    exact ⟨e.1, e.2, entryAt?_of_mem t.ascending he, h e he, rfl⟩
  obtain ⟨u, hread, hin, hout⟩ := readMembers_written hkey t hmembers .empty
  have hut : u = t := Table.ext_get? fun k => by
    by_cases hk : key.write k ∈ (sortEntries written).map Prod.fst
    · exact hin k hk
    · rw [hout k hk, Table.get?_empty, Table.get?, eq_comm, entryAt?_eq_none_iff]
      rintro e he rfl
      have hwritten : (key.write e.1, c.encode e.2) ∈ written := List.mem_map.2 ⟨e, he, rfl⟩
      obtain ⟨m, hm, hname⟩ := exists_mem_sortEntries hwritten
      exact hk (List.mem_map.2 ⟨m, hm, hname⟩)
  exact hread.trans (congrArg Except.ok hut)

end Table

end SiteAtlas.Codec
