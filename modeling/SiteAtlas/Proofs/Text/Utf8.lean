import Mathlib.Tactic.SplitIfs
import SiteAtlas.Text.Utf8

/-!
# The byte form of characters

The front of a written text reads back as the character written, for every character. A byte below
128 occurs in a written text only as the character that it is.
-/
namespace SiteAtlas.Utf8

theorem toNat_toUInt8 {n : Nat} (h : n < 256) : n.toUInt8.toNat = n := by
  rw [Nat.toUInt8_eq, UInt8.toNat_ofNat']
  exact Nat.mod_eq_of_lt h

theorem toUInt8_lt_iff {n : Nat} (b : UInt8) (h : n < 256) : n.toUInt8 < b ↔ n < b.toNat := by
  rw [UInt8.lt_iff_toNat_lt, toNat_toUInt8 h]

theorem toNat_lt (c : Char) : c.toNat < 0x110000 := by
  have h : c.toNat.isValidChar := c.valid
  rcases h with h | h <;> omega

@[simp] theorem encode_nil : encode [] = [] := rfl
@[simp] theorem encode_cons (c : Char) (cs : List Char) :
    encode (c :: cs) = encodeChar c ++ encode cs := rfl
@[simp] theorem encode_append (cs ds : List Char) : encode (cs ++ ds) = encode cs ++ encode ds :=
  List.flatMap_append

theorem encodeChar_ascii {c : Char} (h : c.toNat < 0x80) : encodeChar c = [c.toNat.toUInt8] := by
  simp only [encodeChar, if_pos h]

/-- A continuation byte gives its six bits back. -/
theorem tail?_toUInt8 {n : Nat} (h : n < 64) : tail? (0x80 + n).toUInt8 = some n := by
  have hv : (0x80 + n).toUInt8.toNat = 0x80 + n := toNat_toUInt8 (by omega)
  have hlow : (0x80 : UInt8) ≤ (0x80 + n).toUInt8 := by
    rw [UInt8.le_iff_toNat_le, hv]
    exact Nat.le_add_right _ _
  have hhigh : (0x80 + n).toUInt8 < 0xc0 := by
    rw [toUInt8_lt_iff _ (by omega)]
    change 0x80 + n < 0xc0
    omega
  rw [tail?, if_pos ⟨hlow, hhigh⟩, hv]
  simp

theorem decodeChar?_two {a b : Nat} (ha : 2 ≤ a) (ha' : a < 32) (hb : b < 64) (s : Bytes) :
    decodeChar? ((0xc0 + a).toUInt8 :: (0x80 + b).toUInt8 :: s) =
      (charOf? (a * 64 + b)).map (·, s) := by
  have hv : (0xc0 + a).toUInt8.toNat = 0xc0 + a := toNat_toUInt8 (by omega)
  have h₁ : ¬ (0xc0 + a).toUInt8 < 0x80 := by rw [UInt8.lt_iff_toNat_lt, hv]; simp; omega
  have h₂ : ¬ (0xc0 + a).toUInt8 < 0xc2 := by rw [UInt8.lt_iff_toNat_lt, hv]; simp; omega
  have h₃ : (0xc0 + a).toUInt8 < 0xe0 := by rw [UInt8.lt_iff_toNat_lt, hv]; simp; omega
  have hn : 0xc0 + a - 0xc0 = a := Nat.add_sub_cancel_left _ _
  simp only [decodeChar?, if_neg h₁, if_neg h₂, if_pos h₃]
  rw [tail?_toUInt8 hb, hv, hn, Option.bind_eq_bind, Option.bind_some]
  exact Option.map_eq_bind.symm

theorem decodeChar?_three {a b d : Nat} (ha : a < 16) (hb : b < 64) (hd : d < 64)
    (hn : 0x800 ≤ a * 4096 + b * 64 + d) (s : Bytes) :
    decodeChar? ((0xe0 + a).toUInt8 :: (0x80 + b).toUInt8 :: (0x80 + d).toUInt8 :: s) =
      (charOf? (a * 4096 + b * 64 + d)).map (·, s) := by
  have hv : (0xe0 + a).toUInt8.toNat = 0xe0 + a := toNat_toUInt8 (by omega)
  have h₁ : ¬ (0xe0 + a).toUInt8 < 0x80 := by rw [UInt8.lt_iff_toNat_lt, hv]; simp; omega
  have h₂ : ¬ (0xe0 + a).toUInt8 < 0xc2 := by rw [UInt8.lt_iff_toNat_lt, hv]; simp; omega
  have h₃ : ¬ (0xe0 + a).toUInt8 < 0xe0 := by rw [UInt8.lt_iff_toNat_lt, hv]; simp
  have h₄ : (0xe0 + a).toUInt8 < 0xf0 := by rw [UInt8.lt_iff_toNat_lt, hv]; simp; omega
  have hn' : 0xe0 + a - 0xe0 = a := Nat.add_sub_cancel_left _ _
  simp only [decodeChar?, if_neg h₁, if_neg h₂, if_neg h₃, if_pos h₄]
  rw [tail?_toUInt8 hb, tail?_toUInt8 hd, hv, hn', Option.bind_eq_bind, Option.bind_some,
    Option.bind_some, if_neg (Nat.not_lt.2 hn)]
  exact Option.map_eq_bind.symm

theorem decodeChar?_four {a b d e : Nat} (ha : a < 5) (hb : b < 64) (hd : d < 64) (he : e < 64)
    (hn : 0x10000 ≤ a * 262144 + b * 4096 + d * 64 + e) (s : Bytes) :
    decodeChar? ((0xf0 + a).toUInt8 :: (0x80 + b).toUInt8 :: (0x80 + d).toUInt8 ::
        (0x80 + e).toUInt8 :: s) =
      (charOf? (a * 262144 + b * 4096 + d * 64 + e)).map (·, s) := by
  have hv : (0xf0 + a).toUInt8.toNat = 0xf0 + a := toNat_toUInt8 (by omega)
  have h₁ : ¬ (0xf0 + a).toUInt8 < 0x80 := by rw [UInt8.lt_iff_toNat_lt, hv]; simp; omega
  have h₂ : ¬ (0xf0 + a).toUInt8 < 0xc2 := by rw [UInt8.lt_iff_toNat_lt, hv]; simp; omega
  have h₃ : ¬ (0xf0 + a).toUInt8 < 0xe0 := by rw [UInt8.lt_iff_toNat_lt, hv]; simp; omega
  have h₄ : ¬ (0xf0 + a).toUInt8 < 0xf0 := by rw [UInt8.lt_iff_toNat_lt, hv]; simp
  have h₅ : (0xf0 + a).toUInt8 < 0xf5 := by rw [UInt8.lt_iff_toNat_lt, hv]; simp; omega
  have hn' : 0xf0 + a - 0xf0 = a := Nat.add_sub_cancel_left _ _
  simp only [decodeChar?, if_neg h₁, if_neg h₂, if_neg h₃, if_neg h₄, if_pos h₅]
  -- one step of the monad at a time: unfolding the sum inside the test is slow to check
  rw [tail?_toUInt8 hb, tail?_toUInt8 hd, tail?_toUInt8 he, hv, hn', Option.bind_eq_bind,
    Option.bind_some, Option.bind_some, Option.bind_some, if_neg (Nat.not_lt.2 hn)]
  exact Option.map_eq_bind.symm

/-- The front of a written text reads back as the character written. -/
theorem decodeChar?_encodeChar (c : Char) (s : Bytes) :
    decodeChar? (encodeChar c ++ s) = some (c, s) := by
  have hmax := toNat_lt c
  have hback : (charOf? c.toNat).map (·, s) = some (c, s) := by rw [charOf?_toNat]; rfl
  by_cases h₁ : c.toNat < 0x80
  · have hb : c.toNat.toUInt8 < 0x80 := (toUInt8_lt_iff 0x80 (by omega)).2 h₁
    simp only [encodeChar_ascii h₁, List.singleton_append, decodeChar?, if_pos hb,
      toNat_toUInt8 (show c.toNat < 256 by omega), hback]
  by_cases h₂ : c.toNat < 0x800
  · have hn : c.toNat / 64 * 64 + c.toNat % 64 = c.toNat := Nat.div_add_mod' _ _
    simp only [encodeChar, if_neg h₁, if_pos h₂, List.cons_append, List.nil_append]
    rw [decodeChar?_two (by omega) (by omega) (Nat.mod_lt _ (by decide)), hn, hback]
  by_cases h₃ : c.toNat < 0x10000
  · have hn : c.toNat / 4096 * 4096 + c.toNat / 64 % 64 * 64 + c.toNat % 64 = c.toNat := by omega
    simp only [encodeChar, if_neg h₁, if_neg h₂, if_pos h₃, List.cons_append, List.nil_append]
    rw [decodeChar?_three (by omega) (Nat.mod_lt _ (by decide)) (Nat.mod_lt _ (by decide))
      (by omega), hn, hback]
  · have hn : c.toNat / 262144 * 262144 + c.toNat / 4096 % 64 * 4096 + c.toNat / 64 % 64 * 64 +
        c.toNat % 64 = c.toNat := by omega
    simp only [encodeChar, if_neg h₁, if_neg h₂, if_neg h₃, List.cons_append, List.nil_append]
    rw [decodeChar?_four (by omega) (Nat.mod_lt _ (by decide)) (Nat.mod_lt _ (by decide))
      (Nat.mod_lt _ (by decide)) (by omega), hn, hback]

/-- Texts with the same bytes are equal. -/
theorem encode_injective {cs ds : List Char} (h : encode cs = encode ds) : cs = ds := by
  induction cs generalizing ds with
  | nil =>
    cases ds with
    | nil => rfl
    | cons d ds =>
      have hread := decodeChar?_encodeChar d (encode ds)
      rw [← encode_cons, ← h] at hread
      cases hread
  | cons c cs ih =>
    have hread := decodeChar?_encodeChar c (encode cs)
    rw [← encode_cons, h] at hread
    cases ds with
    | nil => cases hread
    | cons d ds =>
      rw [encode_cons, decodeChar?_encodeChar] at hread
      obtain ⟨rfl, hrest⟩ := Prod.ext_iff.1 (Option.some.inj hread)
      rw [ih hrest.symm]

/-- What the bytes of a character are decoded to does not depend on what follows them. -/
def Fixed (used : Bytes) : Prop :=
  ∃ c? : Option Char, ∀ rest, decodeChar? (used ++ rest) = c?.map (·, rest)

theorem fixed_one {a : UInt8} (ha : a < 0x80) : Fixed [a] :=
  ⟨charOf? a.toNat, fun rest => by
    simp only [decodeChar?, List.cons_append, List.nil_append, if_pos ha]⟩

theorem map_charOf? (limit n : Nat) (rest : Bytes) :
    (if n < limit then none else charOf? n).map (·, rest) =
      if n < limit then none else (charOf? n).bind fun c => some (c, rest) := by
  split_ifs
  · rfl
  · cases charOf? n <;> rfl

theorem fixed_two {a b : UInt8} (ha : ¬a < 0xc2) (ha' : a < 0xe0) : Fixed [a, b] := by
  have hlow : ¬a < 0x80 := fun h => ha (UInt8.lt_trans h (by decide))
  refine ⟨do charOf? ((a.toNat - 0xc0) * 64 + (← tail? b)), fun rest => ?_⟩
  simp only [decodeChar?, List.cons_append, List.nil_append, if_neg hlow, if_neg ha, if_pos ha']
  cases tail? b with
  | none => rfl
  | some m =>
    dsimp only [Option.bind_eq_bind, Option.bind_some]
    generalize (a.toNat - 0xc0) * 64 + m = n
    cases charOf? n <;> rfl

theorem fixed_three {a b c : UInt8} (ha : ¬a < 0xe0) (ha' : a < 0xf0) : Fixed [a, b, c] := by
  have hlow : ¬a < 0x80 ∧ ¬a < 0xc2 :=
    ⟨fun h => ha (UInt8.lt_trans h (by decide)), fun h => ha (UInt8.lt_trans h (by decide))⟩
  refine ⟨do
    let n := (a.toNat - 0xe0) * 4096 + (← tail? b) * 64 + (← tail? c)
    if n < 0x800 then none else charOf? n, fun rest => ?_⟩
  simp only [decodeChar?, List.cons_append, List.nil_append, if_neg hlow.1, if_neg hlow.2,
    if_neg ha, if_pos ha', Option.bind_eq_bind, Option.map_bind, Function.comp_def, map_charOf?,
    Option.pure_def]

theorem fixed_four {a b c d : UInt8} (ha : ¬a < 0xf0) (ha' : a < 0xf5) : Fixed [a, b, c, d] := by
  have hlow : ¬a < 0x80 ∧ ¬a < 0xc2 ∧ ¬a < 0xe0 :=
    ⟨fun h => ha (UInt8.lt_trans h (by decide)), fun h => ha (UInt8.lt_trans h (by decide)),
      fun h => ha (UInt8.lt_trans h (by decide))⟩
  refine ⟨do
    let n := (a.toNat - 0xf0) * 262144 + (← tail? b) * 4096 + (← tail? c) * 64 + (← tail? d)
    if n < 0x10000 then none else charOf? n, fun rest => ?_⟩
  simp only [decodeChar?, List.cons_append, List.nil_append, if_neg hlow.1, if_neg hlow.2.1,
    if_neg hlow.2.2, if_neg ha, if_pos ha', Option.bind_eq_bind, Option.map_bind,
    Function.comp_def, map_charOf?, Option.pure_def]

/-- The first byte tells how many bytes a character has. -/
theorem exists_fixed {s : Bytes} {p : Char × Bytes} (h : decodeChar? s = some p) :
    ∃ used more, used ≠ [] ∧ s = used ++ more ∧ Fixed used := by
  unfold decodeChar? at h
  split at h
  · cases h
  · rename_i a s
    split_ifs at h with h₁ h₂ h₃ h₄ h₅
    · exact ⟨[a], s, by simp, rfl, fixed_one h₁⟩
    · split at h
      · exact ⟨[a, _], _, by simp, rfl, fixed_two h₂ h₃⟩
      · cases h
    · split at h
      · exact ⟨[a, _, _], _, by simp, rfl, fixed_three h₃ h₄⟩
      · cases h
    · split at h
      · exact ⟨[a, _, _, _], _, by simp, rfl, fixed_four h₄ h₅⟩
      · cases h

/-- A character is decoded from its own bytes, whatever follows them. -/
theorem decodeChar?_used {s rest : Bytes} {c : Char} (h : decodeChar? s = some (c, rest)) :
    ∃ used, used ≠ [] ∧ s = used ++ rest ∧ ∀ rest, decodeChar? (used ++ rest) = some (c, rest) := by
  obtain ⟨used, more, hne, rfl, c?, hused⟩ := exists_fixed h
  rw [hused] at h
  obtain ⟨d, rfl, hp⟩ := Option.map_eq_some_iff.1 h
  cases hp
  exact ⟨used, hne, rfl, hused⟩

/-- A byte of a character is the character itself or at least 128. -/
theorem mem_encodeChar {c : Char} {b : UInt8} (h : b ∈ encodeChar c) :
    b.toNat = c.toNat ∨ 0x80 ≤ b.toNat := by
  have hmax := toNat_lt c
  have high {k n : Nat} (hk : 0x80 ≤ k) (hn : k + n < 256) : 0x80 ≤ (k + n).toUInt8.toNat := by
    rw [toNat_toUInt8 hn]
    omega
  unfold encodeChar at h
  simp only at h
  split at h
  · obtain rfl := List.mem_singleton.1 h
    exact .inl (toNat_toUInt8 (by omega))
  · right
    split at h
    · simp only [List.mem_cons, List.not_mem_nil, or_false] at h
      rcases h with rfl | rfl <;> exact high (by decide) (by omega)
    · split at h
      · simp only [List.mem_cons, List.not_mem_nil, or_false] at h
        rcases h with rfl | rfl | rfl <;> exact high (by decide) (by omega)
      · simp only [List.mem_cons, List.not_mem_nil, or_false] at h
        rcases h with rfl | rfl | rfl | rfl <;> exact high (by decide) (by omega)

/-- Every byte below 128 of a written text is one of its characters. -/
theorem mem_encode {cs : List Char} {b : UInt8} (h : b ∈ encode cs) :
    (∃ c ∈ cs, b.toNat = c.toNat) ∨ 0x80 ≤ b.toNat := by
  obtain ⟨c, hc, hb⟩ := List.mem_flatMap.1 h
  rcases mem_encodeChar hb with hb | hb
  · exact .inl ⟨c, hc, hb⟩
  · exact .inr hb

end SiteAtlas.Utf8
