import Mathlib.Tactic.Simproc.ExistsAndEq
import SiteAtlas.Config.Settings
import SiteAtlas.Proofs.Accepted
import SiteAtlas.Proofs.Config.Document
import SiteAtlas.Proofs.Json.Members
import SiteAtlas.Proofs.Text.Blank

/-!
# Layers of settings

A setting is taken from the environment if a variable overrides it, else from the file if the file
has it, else from the defaults. A layer above does not hide what is wrong with one below: a file that
is there must be readable as a whole, whatever the environment overrides.
-/
namespace SiteAtlas

namespace Config

/-- Settings that a file may make. -/
structure Layer where
  socketPath : Option String := none
  timeout : Option UInt64 := none
  startupTimeout : Option UInt64 := none

inductive IsPath : Toml → String → Prop
  | text (path : String) : IsPath (.text path) path

inductive IsMillis : Toml → UInt64 → Prop
  | int (n : UInt64) : IsMillis (.int n.toNat) n

/-- What a document sets: the values of three keys, each of its kind if it is there. Another key may
have any value in which no number is too large. -/
structure Layer.OfDocument (members : Toml.Members) (layer : Layer) : Prop where
  socketPath : Option.Rel IsPath (entryAt? "socket_path" members) layer.socketPath
  timeout : Option.Rel IsMillis (entryAt? "timeout_ms" members) layer.timeout
  startupTimeout : Option.Rel IsMillis (entryAt? "startup_timeout_ms" members) layer.startupTimeout
  others : ∀ m ∈ members, m.1 ∉ ["socket_path", "timeout_ms", "startup_timeout_ms"] →
    m.2.hasHuge = false

/-- What the state of a file sets: nothing if there is no file; else it must be a file of UTF-8 text
that is a document. -/
inductive FileState.Sets : FileState → Layer → Prop
  | absent : Sets .absent {}
  | content {bytes : Utf8.Bytes} {text : List Char} {members : Toml.Members} {layer : Layer}
    (decoded : Utf8.decode? bytes = some text) (read : Toml.read text = some members)
    (document : layer.OfDocument members) : Sets (.content bytes) layer

def Layer.over (layer : Layer) (s : Settings) : Settings where
  socketPath := layer.socketPath.getD s.socketPath
  timeout := layer.timeout.getD s.timeout
  startupTimeout := layer.startupTimeout.getD s.startupTimeout

theorem refuse_ne_ok {α : Type} (v : Toml) (want : String) (a : α) : refuse v want ≠ .ok a := by
  unfold refuse
  cases SettingFound.ofToml v <;> exact nofun

theorem readPath_eq_ok {v : Toml} {path : String} : readPath v = .ok path ↔ IsPath v path := by
  constructor
  · intro h
    cases v with
    | text s =>
      cases h
      exact .text path
    | _ =>
      simp only [readPath] at h
      exact (refuse_ne_ok _ _ _ h).elim
  · rintro ⟨⟩
    rfl

theorem readMillis_eq_ok {v : Toml} {n : UInt64} : readMillis v = .ok n ↔ IsMillis v n := by
  constructor
  · intro h
    cases v with
    | int m =>
      simp only [readMillis] at h
      split_ifs at h with hrange hword
      · cases h
        have hmillis := IsMillis.int (UInt64.ofNat m.toNat)
        have hnat : m.toNat < UInt64.size := by omega
        rwa [UInt64.toNat_ofNat_of_lt' hnat, Int.toNat_of_nonneg hrange.1] at hmillis
      · exact (refuse_ne_ok _ _ _ h).elim
    | _ =>
      simp only [readMillis] at h
      exact (refuse_ne_ok _ _ _ h).elim
  · rintro ⟨⟩
    have hlt : ((n.toNat : Nat) : Int) < UInt64.size := by exact_mod_cast n.toNat_lt_size
    simp only [readMillis, Int.natCast_nonneg, hlt, and_self, if_true, Int.toNat_natCast,
      UInt64.ofNat_toNat]

/-- What can be read from a value is one thing at most. -/
theorem rel_unique {α : Type} {is : Toml → α → Prop} {read : Toml → Except SettingFault α}
    (reads : ∀ v a, read v = .ok a ↔ is v a) {value? : Option Toml} {a? b? : Option α}
    (ha : Option.Rel is value? a?) (hb : Option.Rel is value? b?) : a? = b? := by
  cases ha with
  | none =>
    cases hb
    rfl
  | some ha =>
    cases hb with
    | some hb =>
      have hread := (reads _ _).2 ha
      rw [(reads _ _).2 hb] at hread
      rw [Except.ok.inj hread]

/-- A file sets one thing at most. -/
theorem FileState.Sets.unique {file : FileState} {layer other : Layer} (h : file.Sets layer)
    (hother : file.Sets other) : other = layer := by
  cases h with
  | absent =>
    cases hother
    rfl
  | content decoded read document =>
    cases hother with
    | content decoded' read' document' =>
      cases Option.some.inj (decoded.symm.trans decoded')
      cases Option.some.inj (read.symm.trans read')
      have hpath := rel_unique (fun _ _ => readPath_eq_ok) document'.socketPath document.socketPath
      have htimeout := rel_unique (fun _ _ => readMillis_eq_ok) document'.timeout document.timeout
      have hstartup := rel_unique (fun _ _ => readMillis_eq_ok) document'.startupTimeout
        document.startupTimeout
      cases layer
      cases other
      rw [Layer.mk.injEq]
      exact ⟨hpath, htimeout, hstartup⟩

/-- What a setting comes to: the value that is there for it, or else what it was. -/
def Held {α : Type} (is : Toml → α → Prop) (value? : Option Toml) (old new : α) : Prop :=
  ∃ a?, Option.Rel is value? a? ∧ new = a?.getD old

@[simp] theorem held_none {α : Type} {is : Toml → α → Prop} {old new : α} :
    Held is none old new ↔ old = new := by
  constructor
  · rintro ⟨_, ⟨⟩, rfl⟩
    rfl
  · exact fun h => ⟨none, .none, h.symm⟩

@[simp] theorem held_some {α : Type} {is : Toml → α → Prop} {v : Toml} {old new : α} :
    Held is (some v) old new ↔ is v new := by
  constructor
  · rintro ⟨_, ⟨hv⟩, rfl⟩
    exact hv
  · exact fun h => ⟨some new, .some h, rfl⟩

/-- Digits that give a number of 64 bits, perhaps with a plus sign in front, between blanks. -/
inductive IsMillisText (raw : String) (n : UInt64) : Prop
  | intro {before sign digits after : List Char}
    (text : raw.toList = before ++ (sign ++ digits ++ after))
    (blankBefore : ∀ c ∈ before, Text.isBlank c = true)
    (blankAfter : ∀ c ∈ after, Text.isBlank c = true) (plus : sign = [] ∨ sign = ['+'])
    (some : digits ≠ []) (digit : ∀ c ∈ digits, Toml.isDigit c = true)
    (value : Toml.digitsValue 10 digits = n.toNat)

theorem isBlank_of_isDigit {c : Char} (h : Toml.isDigit c = true) : Text.isBlank c = false := by
  have hrange : 48 ≤ c.toNat ∧ c.toNat ≤ 57 := by
    simpa [Toml.isDigit, Char.le_def, UInt32.le_iff_toNat_le] using h
  simp only [Text.isBlank, Bool.or_eq_false_iff, Bool.and_eq_false_imp, decide_eq_true_eq,
    decide_eq_false_iff_not, beq_eq_false_iff_ne]
  omega

theorem digits?_eq_some {cs : List Char} {n : Nat} :
    digits? cs = some n ↔
      cs ≠ [] ∧ (∀ c ∈ cs, Toml.isDigit c = true) ∧ Toml.digitsValue 10 cs = n := by
  simp [digits?, and_assoc]

/-- A number is not trimmed, and the blanks around it are. -/
theorem trim_number {before sign digits after : List Char}
    (blankBefore : ∀ c ∈ before, Text.isBlank c = true)
    (blankAfter : ∀ c ∈ after, Text.isBlank c = true) (plus : sign = [] ∨ sign = ['+'])
    (some : digits ≠ []) (digit : ∀ c ∈ digits, Toml.isDigit c = true) :
    Text.trim (before ++ (sign ++ digits ++ after)) = sign ++ digits := by
  have hkept : ∀ c ∈ sign ++ digits, Text.isBlank c = false := by
    intro c hc
    rcases List.mem_append.1 hc with hc | hc
    · rcases plus with rfl | rfl
      · cases hc
      · rw [List.mem_singleton.1 hc]
        rfl
    · exact isBlank_of_isDigit (digit c hc)
  obtain ⟨c, kept, hcons⟩ := List.exists_cons_of_ne_nil (List.append_ne_nil_of_right_ne_nil sign some)
  rw [hcons] at hkept ⊢
  have hlast : ∀ b ∈ (c :: kept).getLast?, Text.isBlank b = false := fun b hb =>
    hkept b (List.mem_of_getLast? hb)
  have htrim := @Text.trim_around before [] c after blankBefore (hkept c List.mem_cons_self) kept
    hlast
  rw [Text.dropRight_eq_nil blankAfter] at htrim
  simpa using htrim

theorem millis?_eq_some {raw : String} {n : UInt64} :
    millis? raw = some n ↔ IsMillisText raw n := by
  constructor
  · intro h
    obtain ⟨m, hm, hword⟩ := Option.bind_eq_some_iff.1 h
    split_ifs at hword with hsize
    cases hword
    have hvalue : (UInt64.ofNat m).toNat = m := UInt64.toNat_ofNat_of_lt' hsize
    obtain ⟨before, after, htext, hbefore, hafter⟩ := Text.exists_around_trim raw.toList
    split at hm
    · rename_i rest hplus
      obtain ⟨hsome, hdigit, hm⟩ := digits?_eq_some.1 hm
      rw [hplus] at htext
      exact ⟨htext, hbefore, hafter, .inr rfl, hsome, hdigit, hm.trans hvalue.symm⟩
    · obtain ⟨hsome, hdigit, hm⟩ := digits?_eq_some.1 hm
      exact ⟨htext, hbefore, hafter, .inl rfl, hsome, hdigit, hm.trans hvalue.symm⟩
  · rintro @⟨before, sign, digits, after, htext, hbefore, hafter, hplus, hsome, hdigit, hvalue⟩
    have hdigits := digits?_eq_some.2 ⟨hsome, hdigit, hvalue⟩
    have hword : (if n.toNat < UInt64.size then some (UInt64.ofNat n.toNat) else none) = some n := by
      rw [if_pos n.toNat_lt_size, UInt64.ofNat_toNat]
    simp only [millis?, htext, trim_number hbefore hafter hplus hsome hdigit]
    refine Option.bind_eq_some_iff.2 ⟨n.toNat, ?_, hword⟩
    rcases hplus with rfl | rfl
    · split
      · rename_i rest hstart
        rw [List.nil_append] at hstart
        exact absurd (hdigit '+' (hstart ▸ List.mem_cons_self)) (by decide)
      · exact hdigits
    · exact hdigits

end Config

namespace Settings

open Config

/-- A variable that is set overrides its setting, and must be readable for that. -/
theorem override_eq_ok {s r : Settings} {env : Environment} :
    s.override env = .ok r ↔
      r.socketPath = (env socketVariable).getD s.socketPath ∧
        (match env timeoutVariable with
          | none => r.timeout = s.timeout
          | some raw => IsMillisText raw r.timeout) ∧
        r.startupTimeout = s.startupTimeout := by
  obtain ⟨path, timeout, startup⟩ := r
  unfold override
  cases env timeoutVariable with
  | none => simp [eq_comm]
  | some raw =>
    simp only [← millis?_eq_some]
    cases millis? raw with
    | none => simp
    | some n => simp [eq_comm]

/-- What is wrong with an override is the timeout. -/
theorem override_eq_error {s : Settings} {env : Environment} :
    (∃ why, s.override env = .error why) ↔
      ∃ raw, env timeoutVariable = some raw ∧ ∀ n, ¬IsMillisText raw n := by
  simp only [← millis?_eq_some]
  unfold override
  cases env timeoutVariable with
  | none => simp
  | some raw => cases hraw : millis? raw <;> simp [hraw]

end Settings

end SiteAtlas
