import SiteAtlas.Proofs.Site.Normalization

/-!
# Domains of addresses with a scheme

An address with a scheme names its host between the first mark and the path, query or fragment. So
the host is the domain, whatever user stands in front of it and whatever follows it: marks, at signs
and dots that come later do not count.
-/
namespace SiteAtlas

namespace Domain

/-- The parts of an address with a scheme. -/
structure Absolute where
  scheme : String
  /-- what an at sign parts from the host -/
  user : Option String
  /-- the host, with its port if it has one -/
  host : String
  /-- how many dots stand behind the host -/
  dots : Nat
  /-- path, query and fragment -/
  suffix : String

namespace Absolute

def userText (a : Absolute) : String :=
  match a.user with
  | none => ""
  | some user => user ++ "@"

def text (a : Absolute) : String :=
  a.scheme ++ "://" ++ a.userText ++ a.host ++ String.ofList (List.replicate a.dots '.') ++ a.suffix

/-- The parts are what they are called: the first mark is that of the scheme, and the suffix is the
first thing to end the authority. At signs may occur in the user, and anything in the suffix. -/
structure Proper (a : Absolute) : Prop where
  scheme : ¬ mark <:+: a.scheme.toList
  user : ∀ user ∈ a.user, ∀ c ∈ user.toList, endsAuthority c = false
  host : Cut a.host.toList
  blank : ∀ c ∈ a.host.toList.getLast?, Text.isBlank c = false
  suffix : ∀ c ∈ a.suffix.toList.head?, endsAuthority c = true

def authorityChars (a : Absolute) : List Char :=
  a.userText.toList ++ (a.host.toList ++ List.replicate a.dots '.')

theorem toList_text (a : Absolute) :
    a.text.toList = a.scheme.toList ++ (mark ++ a.authorityChars ++ a.suffix.toList) := by
  simp [text, authorityChars, mark]

variable {a : Absolute}

theorem Proper.authority (h : a.Proper) : ∀ c ∈ a.authorityChars, endsAuthority c = false := by
  intro c hc
  rcases List.mem_append.1 hc with hc | hc
  · rw [userText] at hc
    cases huser : a.user with
    | none => simp [huser] at hc
    | some user =>
      rw [huser] at hc
      rcases List.mem_append.1 (String.toList_append ▸ hc) with hc | hc
      · exact h.user user huser c hc
      · obtain rfl : c = '@' := by simpa using hc
        decide
  · rcases List.mem_append.1 hc with hc | hc
    · exact h.host.authority c hc
    · obtain rfl := List.eq_of_mem_replicate hc
      decide

/-- The last at sign is that of the user. -/
theorem Proper.dropUser (h : a.Proper) :
    dropUser a.authorityChars = a.host.toList ++ List.replicate a.dots '.' := by
  have hat : '@' ∉ a.host.toList ++ List.replicate a.dots '.' := by
    rw [List.mem_append, not_or]
    exact ⟨h.host.user, fun hdot => absurd (List.eq_of_mem_replicate hdot) (by decide)⟩
  refine dropUser_append (fun c hc => ?_) hat
  cases huser : a.user with
  | none => simp [userText, huser] at hc
  | some user => simpa [userText, huser, eq_comm] using hc

/-- The host is what is named in front of anything that ends the authority. -/
theorem Proper.named (h : a.Proper) {suffix : List Char}
    (hsuffix : ∀ c ∈ suffix.head?, endsAuthority c = true) :
    named (a.authorityChars ++ suffix) = a.host.toList := by
  rw [Domain.named, authority_append h.authority hsuffix, h.dropUser,
    h.host.dropRight_append fun c hc => List.eq_of_mem_replicate hc]

/-- No blank stands at the end of the host or of the dots behind it. -/
theorem Proper.getLast? (h : a.Proper) :
    ∀ c ∈ (mark ++ a.authorityChars).getLast?, Text.isBlank c = false := by
  intro c hc
  have hlast := List.getLast?_eq_some_getLast h.host.nonempty
  rw [authorityChars, List.getLast?_append, List.getLast?_append, List.getLast?_append] at hc
  cases hdots : (List.replicate a.dots '.').getLast? with
  | none =>
    rw [hdots, Option.none_or, hlast, Option.some_or, Option.some_or] at hc
    exact h.blank c (hlast.trans hc)
  | some dot =>
    rw [hdots, Option.some_or, Option.some_or, Option.some_or] at hc
    obtain rfl := Option.some.inj hc
    obtain rfl := List.eq_of_mem_replicate (List.mem_of_getLast? hdots)
    decide

/-- Of what follows the host, blanks at the end are trimmed; what is left still starts as it did. -/
theorem Proper.suffix_trimmed (h : a.Proper) {after : List Char}
    (hafter : ∀ c ∈ after, Text.isBlank c = true) :
    ∀ c ∈ (Text.dropRight Text.isBlank (a.suffix.toList ++ after)).head?,
      endsAuthority c = true := by
  intro c hc
  cases hsuffix : a.suffix.toList with
  | nil =>
    rw [hsuffix, List.nil_append, Text.dropRight_eq_nil hafter] at hc
    cases hc
  | cons d suffix =>
    obtain ⟨dropped, hdropped⟩ :=
      Text.dropRight_prefix Text.isBlank (a.suffix.toList ++ after)
    have hhead := congrArg List.head? hdropped
    rw [List.head?_append, Option.mem_def.1 hc, Option.some_or, hsuffix] at hhead
    obtain rfl : c = d := Option.some.inj hhead
    exact h.suffix c (by rw [hsuffix]; rfl)

/-- The domain of an address with a scheme is its host. Blanks around the address, the user, dots
behind the host, and path, query and fragment make no difference. -/
theorem parse_text (h : a.Proper) {before after : String}
    (hbefore : ∀ c ∈ before.toList, Text.isBlank c = true)
    (hafter : ∀ c ∈ after.toList, Text.isBlank c = true) :
    parse (before ++ a.text ++ after) = .ok ⟨a.host⟩ := by
  have hinput : (before ++ a.text ++ after).toList = before.toList ++
      (a.scheme.toList ++ (mark ++ a.authorityChars ++ (a.suffix.toList ++ after.toList))) := by
    simp [toList_text]
  have htrim : Text.trim (before ++ a.text ++ after).toList =
      a.scheme.toList.dropWhile Text.isBlank ++ (mark ++ a.authorityChars ++
        Text.dropRight Text.isBlank (a.suffix.toList ++ after.toList)) := by
    rw [hinput]
    exact Text.trim_around _ hbefore rfl h.getLast?
  have hne : Text.trim (before ++ a.text ++ after).toList ≠ [] := by
    rw [htrim]
    simp [mark]
  have hscheme : ¬ mark <:+: a.scheme.toList.dropWhile Text.isBlank := fun hmark =>
    h.scheme (hmark.trans (List.dropWhile_suffix _).isInfix)
  have hdrop : dropScheme (Text.trim (before ++ a.text ++ after).toList) = a.authorityChars ++
      Text.dropRight Text.isBlank (a.suffix.toList ++ after.toList) := by
    unfold dropScheme
    rw [htrim, List.append_assoc mark, afterScheme?_append_mark hscheme]
  rw [parse_eq hne, hdrop, h.named (h.suffix_trimmed hafter),
    ofHost_of_ne_nil _ h.host.nonempty, String.ofList_toList]

/-- An address with an at sign in its user, another address in its query, and blanks around it. -/
theorem parse_text_nested : ∃ a : Absolute, a.Proper ∧
    a.text = "https://me@home@shop.example.com:8443../a.b/?next=http://u@b.com./#@" ∧
    parse ("\u3000 " ++ a.text ++ " \t") = .ok ⟨"shop.example.com:8443"⟩ := by
  have hnone {cs : List Char} (h : cs.any endsAuthority = false) :
      ∀ c ∈ cs, endsAuthority c = false := fun c hc =>
    Bool.eq_false_iff.2 (List.any_eq_false.1 h c hc)
  have hproper : Proper ⟨"https", some "me@home", "shop.example.com:8443", 2,
      "/a.b/?next=http://u@b.com./#@"⟩ := {
    scheme := afterScheme?_eq_none_iff.1 rfl
    user := fun user huser => Option.some.inj huser ▸ hnone rfl
    host := ⟨by decide, hnone rfl, by decide, by decide⟩
    blank := fun c hc => Option.some.inj hc ▸ rfl
    suffix := fun c hc => Option.some.inj hc ▸ rfl }
  exact ⟨_, hproper, rfl, parse_text hproper (List.all_eq_true.1 rfl) (List.all_eq_true.1 rfl)⟩

end Absolute

end Domain

end SiteAtlas
