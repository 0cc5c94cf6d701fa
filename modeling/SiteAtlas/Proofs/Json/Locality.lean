import Mathlib.Data.List.TakeWhile
import Mathlib.Tactic.SplitIfs
import SiteAtlas.Proofs.Accepted
import SiteAtlas.Proofs.Json.Numerals

/-!
# What a reader uses

A reader that succeeds uses a front of the text, and that front alone decides the result: it is read
in the same way with anything else behind it, as long as that does not go on with a number. So the
parts of a text can be read one by one.
-/
namespace SiteAtlas.Json

open Utf8 (Bytes)

variable {α : Type}

/-- The bytes are read as a result, whatever follows that satisfies a condition. -/
def Reads (ends : Bytes → Prop) (read : Bytes → Except Stop (Parsed α)) (used : Bytes) (a : α) :
    Prop :=
  ∀ rest, ends rest → read (used ++ rest) = .ok (a, rest)

/-- A reader whose results are decided by the bytes that it uses. -/
def Local (ends : Bytes → Prop) (read : Bytes → Except Stop (Parsed α)) : Prop :=
  ∀ s a rest, read s = .ok (a, rest) → ∃ used, s = used ++ rest ∧ Reads ends read used a

def LocalSkip (skip : Bytes → Except Stop Bytes) : Prop :=
  ∀ s rest, skip s = .ok rest → ∃ used, s = used ++ rest ∧ ∀ rest, skip (used ++ rest) = .ok rest

abbrev Anything (_ : Bytes) : Prop := True

/-- A reader that needs a byte to succeed uses the first one. -/
theorem Local.cons {ends : Bytes → Prop} {read : Bytes → Except Stop (Parsed α)}
    (h : Local ends read) (hnil : ∀ p, read [] ≠ .ok p) (hends : ends []) {b : UInt8}
    {r rest : Bytes} {a : α} (hread : read (b :: r) = .ok (a, rest)) :
    ∃ used, r = used ++ rest ∧
      ∀ rest, ends rest → read (b :: (used ++ rest)) = .ok (a, rest) := by
  obtain ⟨used, hs, hused⟩ := h _ _ _ hread
  cases used with
  | nil => exact absurd (hused [] hends) (hnil _)
  | cons c used =>
    obtain ⟨rfl, rfl⟩ := List.cons.inj hs
    exact ⟨used, rfl, hused⟩

theorem local_hexQuad : Local Anything hexQuad := by
  intro s n rest h
  unfold hexQuad at h
  split at h
  · rename_i a b c d s'
    split at h
    · rename_i ha hb hc hd
      cases h
      refine ⟨[a, b, c, d], rfl, fun rest _ => ?_⟩
      simp only [hexQuad, List.cons_append, List.nil_append, ha, hb, hc, hd]
    · cases h
  · cases h

theorem localSkip_pairMark (c : Char) : LocalSkip (pairMark c) := by
  intro s rest h
  cases s with
  | nil => cases h
  | cons b s =>
    simp only [pairMark] at h
    split_ifs at h with hb
    · cases h
      exact ⟨[b], rfl, fun rest => by simp only [pairMark, List.cons_append, hb, if_true]; rfl⟩
    · cases h

theorem local_unicodeEscape : Local Anything unicodeEscape := by
  intro s c rest h
  obtain ⟨⟨high, s₁⟩, hhigh, hmore⟩ := bind_eq_ok.1 h
  clear h
  obtain ⟨used, rfl, hused⟩ := local_hexQuad _ _ _ hhigh
  dsimp only at hmore
  split_ifs at hmore with hlone hpair
  · cases hmore
  · obtain ⟨s₂, hslash, hmore⟩ := bind_eq_ok.1 hmore
    obtain ⟨s₃, hu, hmore⟩ := bind_eq_ok.1 hmore
    obtain ⟨⟨low, s₄⟩, hlow, hlast⟩ := bind_eq_ok.1 hmore
    obtain ⟨slash, rfl, hslash'⟩ := localSkip_pairMark _ _ _ hslash
    obtain ⟨u, rfl, hu'⟩ := localSkip_pairMark _ _ _ hu
    obtain ⟨used', rfl, hused'⟩ := local_hexQuad _ _ _ hlow
    dsimp only at hlast
    split_ifs at hlast with hrange
    · cases hlast
    · simp only [pure, Except.pure, Except.ok.injEq, Prod.mk.injEq] at hlast
      obtain ⟨rfl, rfl⟩ := hlast
      refine ⟨used ++ (slash ++ (u ++ used')), by simp only [List.append_assoc], fun rest _ => ?_⟩
      refine bind_eq_ok.2 ⟨_, by rw [List.append_assoc, hused _ trivial], ?_⟩
      dsimp only
      rw [if_neg hlone, if_pos hpair, List.append_assoc]
      refine bind_eq_ok.2 ⟨_, hslash' _, ?_⟩
      rw [List.append_assoc]
      refine bind_eq_ok.2 ⟨_, hu' _, bind_eq_ok.2 ⟨_, hused' _ trivial, ?_⟩⟩
      dsimp only
      rw [if_neg hrange]
      rfl
  · cases hmore
    refine ⟨used, rfl, fun rest _ => ?_⟩
    simp only [unicodeEscape, hused _ trivial, bind, Except.bind, if_neg hlone, if_neg hpair, pure,
      Except.pure]

/-- All escapes but those by code unit have one byte behind the backslash. -/
theorem escape_cons {b : UInt8} (h : b ≠ ascii 'u') :
    (∃ c, ∀ s, escape (b :: s) = .ok (c, s)) ∨ ∀ s p, escape (b :: s) ≠ .ok p := by
  simp only [escape, if_neg h]
  split_ifs <;> simp [stopAt]

theorem local_escape : Local Anything escape := by
  intro s c rest h
  cases s with
  | nil => cases h
  | cons b s =>
    by_cases hu : b = ascii 'u'
    · subst hu
      have hescape : ∀ s, escape (ascii 'u' :: s) = unicodeEscape s := fun s => rfl
      rw [hescape] at h
      obtain ⟨used, rfl, hused⟩ := local_unicodeEscape _ _ _ h
      exact ⟨ascii 'u' :: used, rfl, fun rest hrest => (hescape _).trans (hused rest hrest)⟩
    · obtain ⟨d, hd⟩ | hnone := escape_cons hu
      · rw [hd] at h
        cases h
        exact ⟨[b], rfl, fun rest _ => hd rest⟩
      · exact absurd h (hnone s _)

/-- One character more in front of those that are read. -/
theorem stringChars_step {b : UInt8} {front s rest : Bytes} {c : Char} {done cs : List Char}
    (hnext : ∀ x fuel rest, stringChars (x :: fuel) done (b :: (front ++ rest)) =
      stringChars fuel (c :: done) rest)
    (hlater : ∃ used, s = used ++ rest ∧ ∀ fuel rest, used.length ≤ fuel.length →
      stringChars fuel (c :: done) (used ++ rest) = .ok (cs, rest)) :
    ∃ used, b :: (front ++ s) = used ++ rest ∧ ∀ fuel rest, used.length ≤ fuel.length →
      stringChars fuel done (used ++ rest) = .ok (cs, rest) := by
  obtain ⟨used, rfl, hused⟩ := hlater
  refine ⟨b :: (front ++ used), by simp, fun fuel rest hfuel => ?_⟩
  cases fuel with
  | nil => simp at hfuel
  | cons x fuel =>
    rw [List.cons_append, List.append_assoc, hnext]
    refine hused fuel rest ?_
    simp only [List.length_cons, List.length_append] at hfuel
    omega

/-- The characters of a string are decided by their bytes and the closing quote. The fuel must be
enough for them. -/
theorem stringChars_used {fuel : Bytes} {done : List Char} {s rest : Bytes} {cs : List Char}
    (h : stringChars fuel done s = .ok (cs, rest)) :
    ∃ used, s = used ++ rest ∧ ∀ fuel rest, used.length ≤ fuel.length →
      stringChars fuel done (used ++ rest) = .ok (cs, rest) := by
  induction fuel generalizing done s with
  | nil => cases h
  | cons x fuel ih =>
    cases s with
    | nil => cases h
    | cons b s =>
      simp only [stringChars] at h
      split_ifs at h with hquote hslash hcontrol
      · cases h
        refine ⟨[b], rfl, fun fuel rest hfuel => ?_⟩
        cases fuel with
        | nil => simp at hfuel
        | cons y fuel => simp only [stringChars, List.cons_append, List.nil_append, if_pos hquote]
      · split at h
        · rename_i c s' hescape
          obtain ⟨front, rfl, hfront⟩ := local_escape _ _ _ hescape
          refine stringChars_step (fun y fuel rest => ?_) (ih h)
          simp only [stringChars, if_neg hquote, if_pos hslash, hfront _ trivial]
        · cases h
      · cases h
      · split at h
        · rename_i c s' hdecode
          obtain ⟨front, hne, hs, hfront⟩ := Utf8.decodeChar?_used hdecode
          obtain ⟨d, front, rfl⟩ := List.exists_cons_of_ne_nil hne
          obtain ⟨rfl, rfl⟩ := List.cons.inj hs
          refine stringChars_step (fun y fuel rest => ?_) (ih h)
          have hnext := hfront rest
          rw [List.cons_append] at hnext
          simp only [stringChars, if_neg hquote, if_neg hslash, if_neg hcontrol, hnext]
        · unfold badByte at h
          split at h
          · cases h
          · split_ifs at h <;> cases h

theorem local_string : Local Anything string := by
  intro s t rest h
  obtain ⟨⟨cs, s'⟩, hchars, hresult⟩ := bind_eq_ok.1 h
  cases hresult
  obtain ⟨used, rfl, hused⟩ := stringChars_used hchars
  refine ⟨used, rfl, fun rest _ => ?_⟩
  have hfuel : used.length ≤ (0 :: (used ++ rest)).length := by
    simp only [List.length_cons, List.length_append]
    omega
  exact bind_eq_ok.2 ⟨_, hused _ rest hfuel, rfl⟩

/-- Other bytes behind a front do not put a digit in front. -/
theorem NoDigit.replace {used rest rest' : Bytes} (h : NoDigit (used ++ rest))
    (hends : EndsNumber rest') : NoDigit (used ++ rest') := by
  cases used with
  | nil => exact .of_ends hends
  | cons b used => exact h

def exponentValue? (negative : Bool) (size : Decimal.Scientific) (down : Bool) (ds : Bytes) :
    Option Json :=
  match overflowAt? 0 ds with
  | some _ =>
    if size.digits = 0 ∨ down then some (.float (if negative then -0.0 else 0.0)) else none
  | none =>
    let e : Int := if down then -(digitsValue ds : Int) else digitsValue ds
    (Decimal.Scientific.quick? negative ⟨size.digits, size.exponent + e⟩).map .float

theorem exponentDigits_append {negative down : Bool} {size : Decimal.Scientific}
    {ds rest rest' : Bytes} {j : Json} (hne : ds ≠ []) (hd : ∀ b ∈ ds, isDigit b = true)
    (hr : NoDigit rest) :
    exponentDigits negative size down (ds ++ rest) = .ok (j, rest') ↔
      exponentValue? negative size down ds = some j ∧ rest = rest' := by
  obtain ⟨htake, hdrop⟩ := takeWhile_digits hd hr
  obtain ⟨b, ds, rfl⟩ := List.exists_cons_of_ne_nil hne
  have hb : ¬((!isDigit b) = true) := by simp [hd b List.mem_cons_self]
  rw [List.cons_append] at htake hdrop ⊢
  simp only [exponentDigits, if_neg hb, htake, hdrop, exponentValue?]
  cases overflowAt? 0 (b :: ds) with
  | some unread =>
    by_cases hzero : size.digits = 0 ∨ down = true
    · simp only [if_pos hzero, Except.ok.injEq, Prod.mk.injEq, Option.some.injEq]
    · simp [if_neg hzero, stopAt]
  | none =>
    dsimp only
    cases Decimal.Scientific.quick? negative _ with
    | none => simp [stopAt]
    | some x => simp

theorem local_exponentDigits (negative : Bool) (size : Decimal.Scientific) (down : Bool) :
    Local EndsNumber (exponentDigits negative size down) := by
  intro s j rest h
  have hdigit : ∀ b ∈ s.takeWhile isDigit, isDigit b = true := fun b => List.mem_takeWhile_imp
  have hne : s.takeWhile isDigit ≠ [] := by
    cases s with
    | nil => cases h
    | cons b r =>
      cases hb : isDigit b with
      | true => simp [hb]
      | false => simp [exponentDigits, hb, stopAt] at h
  rw [← @List.takeWhile_append_dropWhile _ isDigit s,
    exponentDigits_append hne hdigit (noDigit_dropWhile s)] at h
  refine ⟨s.takeWhile isDigit, ?_, fun rest hrest => ?_⟩
  · rw [← h.2, List.takeWhile_append_dropWhile]
  · exact (exponentDigits_append hne hdigit (.of_ends hrest)).2 ⟨h.1, rfl⟩

theorem local_exponentPart (negative : Bool) (size : Decimal.Scientific) :
    Local EndsNumber (exponentPart negative size) := by
  intro s j rest h
  cases s with
  | nil => cases h
  | cons b r =>
    simp only [exponentPart] at h
    split_ifs at h with hminus hplus
    · obtain ⟨used, rfl, hused⟩ := local_exponentDigits _ _ _ _ _ _ h
      refine ⟨b :: used, rfl, fun rest hrest => ?_⟩
      simp only [exponentPart, List.cons_append, if_pos hminus, hused rest hrest]
    · obtain ⟨used, rfl, hused⟩ := local_exponentDigits _ _ _ _ _ _ h
      refine ⟨b :: used, rfl, fun rest hrest => ?_⟩
      simp only [exponentPart, List.cons_append, if_neg hminus, if_pos hplus, hused rest hrest]
    · obtain ⟨used, rfl, hused⟩ :=
        (local_exponentDigits negative size false).cons (fun _ h => by cases h) trivial h
      refine ⟨b :: used, rfl, fun rest hrest => ?_⟩
      simp only [exponentPart, List.cons_append, if_neg hminus, if_neg hplus, hused rest hrest]

def exponentOr (negative : Bool) (size : Decimal.Scientific)
    (plain : Bytes → Except Stop (Parsed Json)) : Bytes → Except Stop (Parsed Json)
  | [] => plain []
  | b :: r =>
    if b = ascii 'e' || b = ascii 'E' then exponentPart negative size r else plain (b :: r)

theorem local_exponentOr (negative : Bool) (size : Decimal.Scientific)
    {plain : Bytes → Except Stop (Parsed Json)} {number? : Option Json}
    (hplain : ∀ s j rest, plain s = .ok (j, rest) ↔ number? = some j ∧ s = rest) :
    Local EndsNumber (exponentOr negative size plain) := by
  have atEnd {j : Json} (hj : number? = some j) :
      Reads EndsNumber (exponentOr negative size plain) [] j := by
    intro rest hrest
    cases rest with
    | nil => exact (hplain _ _ _).2 ⟨hj, rfl⟩
    | cons b r =>
      obtain ⟨-, -, he, hE⟩ := hrest
      have hletter : (b = ascii 'e' || b = ascii 'E') = false := by simp [he, hE]
      simp only [exponentOr, List.nil_append, hletter, Bool.false_eq_true, if_false]
      exact (hplain _ _ _).2 ⟨hj, rfl⟩
  intro s j rest h
  cases s with
  | nil =>
    obtain ⟨hj, rfl⟩ := (hplain _ _ _).1 h
    exact ⟨[], rfl, atEnd hj⟩
  | cons b r =>
    simp only [exponentOr] at h
    split_ifs at h with hletter
    · obtain ⟨used, rfl, hused⟩ := local_exponentPart _ _ _ _ _ h
      refine ⟨b :: used, rfl, fun rest hrest => ?_⟩
      simp only [exponentOr, List.cons_append, if_pos hletter, hused rest hrest]
    · obtain ⟨hj, rfl⟩ := (hplain _ _ _).1 h
      exact ⟨[], rfl, atEnd hj⟩

theorem plainNumber_eq_ok {negative : Bool} {whole s rest : Bytes} {j : Json} :
    afterDigits.plainNumber negative whole s = .ok (j, rest) ↔
      wholeNumber? negative whole = some j ∧ s = rest := by
  unfold afterDigits.plainNumber
  cases wholeNumber? negative whole <;> simp [stopAt]

theorem decimalNumber_eq_ok {negative : Bool} {size : Decimal.Scientific} {s rest : Bytes}
    {j : Json} : afterDigits.decimalNumber negative size s = .ok (j, rest) ↔
      (size.quick? negative).map .float = some j ∧ s = rest := by
  unfold afterDigits.decimalNumber
  cases size.quick? negative <;> simp [stopAt]

theorem afterDigits_point (negative : Bool) (whole : Bytes) {fraction rest : Bytes}
    (hne : fraction ≠ []) (hd : ∀ b ∈ fraction, isDigit b = true) (hr : NoDigit rest) :
    afterDigits negative whole (ascii '.' :: (fraction ++ rest)) =
      exponentOr negative (decimal whole fraction)
        (afterDigits.decimalNumber negative (decimal whole fraction)) rest := by
  obtain ⟨htake, hdrop⟩ := takeWhile_digits hd hr
  have hempty : fraction.isEmpty = false := by simpa using hne
  simp only [afterDigits, if_true, htake, hdrop, hempty, Bool.false_eq_true, if_false]
  cases rest <;> rfl

theorem afterDigits_of_ne_point (negative : Bool) (whole : Bytes) {s : Bytes}
    (h : s.head? ≠ some (ascii '.')) :
    afterDigits negative whole s =
      exponentOr negative (decimal whole []) (afterDigits.plainNumber negative whole) s := by
  cases s with
  | nil => rfl
  | cons b r =>
    have hb : b ≠ ascii '.' := fun hb => h (congrArg some hb)
    simp only [afterDigits, if_neg hb, exponentOr]

theorem local_afterDigits (negative : Bool) (whole : Bytes) :
    Local EndsNumber (afterDigits negative whole) := by
  intro s j rest h
  by_cases hpoint : s.head? = some (ascii '.')
  · obtain ⟨r, rfl⟩ : ∃ r, s = ascii '.' :: r := by
      cases s with
      | nil => cases hpoint
      | cons b r => exact ⟨r, congrArg (· :: r) (Option.some.inj hpoint)⟩
    have hdigit : ∀ b ∈ r.takeWhile isDigit, isDigit b = true := fun b => List.mem_takeWhile_imp
    have hne : r.takeWhile isDigit ≠ [] := by
      intro hnil
      simp only [afterDigits, if_true, hnil, List.isEmpty_nil] at h
      split at h <;> cases h
    rw [← @List.takeWhile_append_dropWhile _ isDigit r,
      afterDigits_point negative whole hne hdigit (noDigit_dropWhile r)] at h
    obtain ⟨used, hs, hused⟩ :=
      local_exponentOr _ _ (fun _ _ _ => decimalNumber_eq_ok) _ _ _ h
    have hnone := noDigit_dropWhile r
    rw [hs] at hnone
    refine ⟨ascii '.' :: (r.takeWhile isDigit ++ used), ?_, fun rest hrest => ?_⟩
    · rw [List.cons_append, List.append_assoc, ← hs, List.takeWhile_append_dropWhile]
    · rw [List.cons_append, List.append_assoc,
        afterDigits_point negative whole hne hdigit (hnone.replace hrest)]
      exact hused rest hrest
  · rw [afterDigits_of_ne_point negative whole hpoint] at h
    obtain ⟨used, rfl, hused⟩ := local_exponentOr _ _ (fun _ _ _ => plainNumber_eq_ok) _ _ _ h
    refine ⟨used, rfl, fun rest hrest => ?_⟩
    have hhead : (used ++ rest).head? ≠ some (ascii '.') := by
      cases used with
      | nil =>
        cases rest with
        | nil => exact fun h => by cases h
        | cons b r => exact fun hb => hrest.2.1 (Option.some.inj hb)
      | cons b used => exact hpoint
    rw [afterDigits_of_ne_point negative whole hhead]
    exact hused rest hrest

theorem local_unsigned (negative : Bool) : Local EndsNumber (unsigned negative) := by
  intro s j rest h
  obtain ⟨whole, more, rfl, hwhole, hmore⟩ := exists_numeral h
  rw [unsigned_append hwhole hmore] at h
  obtain ⟨used, rfl, hused⟩ := local_afterDigits negative whole _ _ _ h
  refine ⟨whole ++ used, (List.append_assoc ..).symm, fun rest hrest => ?_⟩
  rw [List.append_assoc, unsigned_append hwhole (hmore.replace hrest)]
  exact hused rest hrest

theorem local_number : Local EndsNumber number := by
  intro s j rest h
  cases s with
  | nil => cases h
  | cons b r =>
    simp only [number] at h
    split_ifs at h with hminus
    · obtain ⟨used, rfl, hused⟩ := local_unsigned _ _ _ _ h
      refine ⟨b :: used, rfl, fun rest hrest => ?_⟩
      simp only [number, List.cons_append, if_pos hminus, hused rest hrest]
    · obtain ⟨used, rfl, hused⟩ :=
        (local_unsigned false).cons (fun _ h => by cases h) trivial h
      refine ⟨b :: used, rfl, fun rest hrest => ?_⟩
      simp only [number, List.cons_append, if_neg hminus, hused rest hrest]

end SiteAtlas.Json
