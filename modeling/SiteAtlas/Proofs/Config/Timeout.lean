import Mathlib.Data.List.Induction
import Mathlib.Data.Nat.Digits.Defs
import SiteAtlas.Proofs.Config.Settings

/-!
# The timeout in the environment

The variable of the timeout must spell a number of 64 bits in decimal. Blanks around it, a plus sign
and zeros in front make no difference; a larger number is refused and not cut to size.
-/
namespace SiteAtlas

namespace Config

/-- Decimal digits and their number. The first digits may be zeros. -/
structure IsNumeral (digits : List Char) (n : Nat) : Prop where
  nonempty : digits ≠ []
  digit : ∀ c ∈ digits, '0' ≤ c ∧ c ≤ '9'
  value : Nat.ofDigits 10 (digits.reverse.map fun c => c.toNat - '0'.toNat) = n

/-- A numeral, perhaps with one plus sign in front. -/
inductive Spells : List Char → Nat → Prop
  | plain {digits : List Char} {n : Nat} (numeral : IsNumeral digits n) : Spells digits n
  | plus {digits : List Char} {n : Nat} (numeral : IsNumeral digits n) : Spells ('+' :: digits) n

theorem isDigit_iff {c : Char} : Toml.isDigit c = true ↔ '0' ≤ c ∧ c ≤ '9' := by
  simp [Toml.isDigit]

/-- Each digit has its place value. -/
theorem digitsValue_eq_ofDigits {digits : List Char} (h : ∀ c ∈ digits, Toml.isDigit c = true) :
    Toml.digitsValue 10 digits =
      Nat.ofDigits 10 (digits.reverse.map fun c => c.toNat - '0'.toNat) := by
  induction digits using List.reverseRecOn with
  | nil => rfl
  | append_singleton digits c ih =>
    have hc : Toml.hexValue? c = some (c.toNat - '0'.toNat) :=
      if_pos (h c (by simp))
    have hvalue : Toml.digitsValue 10 (digits ++ [c]) =
        Toml.digitsValue 10 digits * 10 + (c.toNat - '0'.toNat) := by
      simp [Toml.digitsValue, hc]
    rw [hvalue, ih fun d hd => h d (List.mem_append_left _ hd), List.reverse_append,
      List.reverse_singleton, List.singleton_append, List.map_cons, Nat.ofDigits_cons]
    omega

theorem isNumeral_iff {digits : List Char} {n : Nat} :
    IsNumeral digits n ↔
      digits ≠ [] ∧ (∀ c ∈ digits, Toml.isDigit c = true) ∧ Toml.digitsValue 10 digits = n := by
  constructor
  · intro h
    have hdigit : ∀ c ∈ digits, Toml.isDigit c = true := fun c hc => isDigit_iff.2 (h.digit c hc)
    exact ⟨h.nonempty, hdigit, (digitsValue_eq_ofDigits hdigit).trans h.value⟩
  · rintro ⟨hne, hdigit, hvalue⟩
    exact ⟨hne, fun c hc => isDigit_iff.1 (hdigit c hc),
      (digitsValue_eq_ofDigits hdigit).symm.trans hvalue⟩

theorem IsNumeral.zeros {digits : List Char} {n : Nat} (h : IsNumeral digits n) (count : Nat) :
    IsNumeral (List.replicate count '0' ++ digits) n := by
  refine ⟨List.append_ne_nil_of_right_ne_nil _ h.nonempty, fun c hc => ?_, ?_⟩
  · rcases List.mem_append.1 hc with hc | hc
    · rw [List.eq_of_mem_replicate hc]
      decide
    · exact h.digit c hc
  · rw [List.reverse_append, List.reverse_replicate, List.map_append, List.map_replicate]
    exact (Nat.ofDigits_append_replicate_zero _).trans h.value

theorem isMillisText_iff {raw : String} {n : UInt64} :
    IsMillisText raw n ↔ Spells (Text.trim raw.toList) n.toNat := by
  constructor
  · rintro @⟨before, sign, digits, after, htext, hbefore, hafter, hplus, hsome, hdigit, hvalue⟩
    have hnumeral : IsNumeral digits n.toNat := isNumeral_iff.2 ⟨hsome, hdigit, hvalue⟩
    rw [htext, trim_number hbefore hafter hplus hsome hdigit]
    rcases hplus with rfl | rfl
    · exact .plain hnumeral
    · exact .plus hnumeral
  · obtain ⟨before, after, htext, hbefore, hafter⟩ := Text.exists_around_trim raw.toList
    intro h
    generalize Text.trim raw.toList = trimmed at h htext
    cases h with
    | plain numeral =>
      obtain ⟨hsome, hdigit, hvalue⟩ := isNumeral_iff.1 numeral
      exact ⟨htext, hbefore, hafter, .inl rfl, hsome, hdigit, hvalue⟩
    | plus numeral =>
      obtain ⟨hsome, hdigit, hvalue⟩ := isNumeral_iff.1 numeral
      exact ⟨htext, hbefore, hafter, .inr rfl, hsome, hdigit, hvalue⟩

end Config

namespace Settings

open Config

/-- What is wrong with an override is the text of the timeout. -/
theorem badTimeout_of_override {s : Settings} {env : Environment} {why : Rejection}
    (h : s.override env = .error why) :
    ∃ raw, env timeoutVariable = some raw ∧ why = .badTimeout raw := by
  unfold override at h
  cases hraw : env timeoutVariable with
  | none => simp [hraw] at h
  | some raw =>
    cases hmillis : millis? raw with
    | none =>
      simp only [hraw, hmillis] at h
      exact ⟨raw, rfl, (Except.error.inj h).symm⟩
    | some n => simp [hraw, hmillis] at h

/-- The variable of the timeout is taken if it spells a number of 64 bits, which then is the
timeout, and only then. Anything else is refused as invalid input. Zeros in front of a numeral make
no difference. -/
theorem override_timeout {env : Environment} {raw : String} (h : env timeoutVariable = some raw)
    (s : Settings) :
    let spelled (n : Nat) : Prop := Spells (Text.trim raw.toList) n
    (∀ n, (∃ r, s.override env = .ok r ∧ r.timeout.toNat = n) ↔ n < 2 ^ 64 ∧ spelled n) ∧
    ((∃ why, s.override env = .error why) ↔ ∀ n, spelled n → 2 ^ 64 ≤ n) ∧
    (∀ why, s.override env = .error why →
      why = .badTimeout raw ∧ (ClientError.rejected why).kind = .invalidInput) ∧
    ∀ count digits n, IsNumeral digits n → IsNumeral (List.replicate count '0' ++ digits) n := by
  intro spelled
  refine ⟨fun n => ⟨?_, ?_⟩, ?_, fun why hwhy => ?_, fun count digits n hn => hn.zeros count⟩
  · rintro ⟨r, hr, rfl⟩
    have htimeout := (override_eq_ok.1 hr).2.1
    rw [h] at htimeout
    exact ⟨r.timeout.toNat_lt, isMillisText_iff.1 htimeout⟩
  · rintro ⟨hlt, hspelled⟩
    have hnat : (UInt64.ofNat n).toNat = n := UInt64.toNat_ofNat_of_lt' hlt
    refine ⟨⟨(env socketVariable).getD s.socketPath, UInt64.ofNat n, s.startupTimeout⟩,
      override_eq_ok.2 ⟨rfl, ?_, rfl⟩, hnat⟩
    rw [h]
    exact isMillisText_iff.2 (by rwa [hnat])
  · rw [override_eq_error]
    constructor
    · rintro ⟨raw', hraw, hnone⟩ n hspelled
      obtain rfl : raw = raw' := Option.some.inj (h.symm.trans hraw)
      by_contra hlt
      have hnat : (UInt64.ofNat n).toNat = n := UInt64.toNat_ofNat_of_lt' (Nat.lt_of_not_le hlt)
      exact hnone (UInt64.ofNat n) (isMillisText_iff.2 (by rwa [hnat]))
    · intro hlarge
      refine ⟨raw, h, fun n hn => ?_⟩
      exact absurd n.toNat_lt (Nat.not_lt.2 (hlarge _ (isMillisText_iff.1 hn)))
  · obtain ⟨raw', hraw, rfl⟩ := badTimeout_of_override hwhy
    obtain rfl : raw = raw' := Option.some.inj (h.symm.trans hraw)
    exact ⟨rfl, rfl⟩

/-- The largest timeout with a sign, zeros and blanks around it, and the number behind it. -/
theorem override_timeout_limits :
    let env (raw name : String) : Option String :=
      if name = "CARTOGRAPH_TIMEOUT_MS" then some raw else none
    let s : Settings := ⟨"/run/a.sock", 60000, 15000⟩
    (∃ r, s.override (env "\u3000+00018446744073709551615\n") = .ok r ∧
      r.timeout.toNat = 18446744073709551615) ∧
    s.override (env "18446744073709551616") = .error (.badTimeout "18446744073709551616") := by
  intro env s
  have hlargest := @override_timeout (env "\u3000+00018446744073709551615\n") _ rfl s
  have hnext := @override_timeout (env "18446744073709551616") _ rfl s
  have htrim : Text.trim "\u3000+00018446744073709551615\n".toList =
      '+' :: "00018446744073709551615".toList := by decide
  have hspelled : Spells (Text.trim "\u3000+00018446744073709551615\n".toList)
      18446744073709551615 := by
    rw [htrim]
    exact .plus (isNumeral_iff.2 ⟨by decide, List.all_eq_true.1 rfl, by decide⟩)
  have hlarge (n : Nat) (h : Spells (Text.trim "18446744073709551616".toList) n) :
      2 ^ 64 ≤ n := by
    have htrim : Text.trim "18446744073709551616".toList = "18446744073709551616".toList := by
      decide
    rw [htrim] at h
    cases h with
    | plain numeral =>
      obtain ⟨-, -, rfl⟩ := isNumeral_iff.1 numeral
      decide
  obtain ⟨why, hwhy⟩ := hnext.2.1.2 hlarge
  refine ⟨(hlargest.1 _).2 ⟨by decide, hspelled⟩, ?_⟩
  rw [hwhy, (hnext.2.2.1 why hwhy).1]

end Settings

end SiteAtlas
