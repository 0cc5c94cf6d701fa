import SiteAtlas.Site.Domain

/-!
# Domains of addresses without a scheme

The mark of a scheme is looked for in the whole address, before path, query and fragment are cut
off. So a host that is given without a scheme is the domain as long as no mark follows it; where one
does, the domain is taken from behind that mark.
-/
namespace SiteAtlas.Domain

def mark : List Char := [':', '/', '/']

/-- A mark that is not at the start is found further on. -/
theorem afterScheme?_cons {c : Char} {cs : List Char} (h : ¬ mark <+: c :: cs) :
    afterScheme? (c :: cs) = afterScheme? cs := by
  rw [afterScheme?]
  rintro rest hc rfl
  subst hc
  exact h ⟨rest, rfl⟩

theorem afterScheme?_eq_none_iff {cs : List Char} : afterScheme? cs = none ↔ ¬ mark <:+: cs := by
  induction cs with
  | nil => simp [afterScheme?, mark]
  | cons c cs ih =>
    rw [List.infix_cons_iff]
    by_cases h : mark <+: c :: cs
    · obtain ⟨rest, hrest⟩ := id h
      rw [← hrest]
      simp [mark, afterScheme?]
    · rw [afterScheme?_cons h, ih]
      simp [h]

/-- The mark does not overlap with itself, so the first one is found behind a text without one. -/
theorem afterScheme?_append_mark {front : List Char} (h : ¬ mark <:+: front) (rest : List Char) :
    afterScheme? (front ++ (mark ++ rest)) = some rest := by
  induction front with
  | nil => rfl
  | cons c front ih =>
    rw [List.infix_cons_iff, not_or] at h
    rw [List.cons_append, afterScheme?_cons ?_, ih h.2]
    intro hmark
    match front with
    | [] => simp [mark] at hmark
    | [d] => simp [mark] at hmark
    | d :: d' :: front => exact h.1 (by simpa [mark] using hmark)

/-- No mark starts in a text without slashes that does not end in a colon. -/
theorem afterScheme?_append {front : List Char} (hslash : '/' ∉ front)
    (hcolon : front.getLast? ≠ some ':') (cs : List Char) :
    afterScheme? (front ++ cs) = afterScheme? cs := by
  induction front with
  | nil => rfl
  | cons c front ih =>
    rw [List.cons_append, afterScheme?_cons ?_]
    · cases front with
      | nil => rfl
      | cons d front => exact ih (by simp_all) (by simpa using hcolon)
    · rintro ⟨rest, hmark⟩
      cases front with
      | nil =>
        obtain rfl : ':' = c := (List.cons.inj hmark).1
        exact hcolon rfl
      | cons d front =>
        obtain rfl : '/' = d := (List.cons.inj (List.cons.inj hmark).2).1
        exact hslash (by simp)

def named (cs : List Char) : List Char := Text.dropRight (· == '.') (dropUser (authority cs))

def ofHost (input : String) : List Char → Except Rejection Domain
  | [] => .error (.emptyHost input)
  | host => .ok ⟨String.ofList host⟩

theorem ofHost_of_ne_nil (input : String) {host : List Char} (h : host ≠ []) :
    ofHost input host = .ok ⟨String.ofList host⟩ := by
  cases host with
  | nil => exact absurd rfl h
  | cons c cs => rfl

theorem parse_eq {input : String} (h : Text.trim input.toList ≠ []) :
    parse input = ofHost input (named (dropScheme (Text.trim input.toList))) := by
  rw [parse]
  cases hcs : Text.trim input.toList with
  | nil => exact absurd hcs h
  | cons c cs =>
    change (match host (c :: cs) with | [] => _ | h => _) = ofHost input (host (c :: cs))
    cases host (c :: cs) <;> rfl

/-- An authority reaches up to the first character that ends it. -/
theorem authority_append {cs suffix : List Char} (h : ∀ c ∈ cs, endsAuthority c = false)
    (hsuffix : ∀ c ∈ suffix.head?, endsAuthority c = true) : authority (cs ++ suffix) = cs := by
  rw [authority, List.takeWhile_append_of_pos fun c hc => by simp [h c hc]]
  cases suffix with
  | nil => simp
  | cons c suffix => simp [hsuffix c rfl]

/-- A user ends in the last at sign, and is dropped with it. -/
theorem dropUser_append {user cs : List Char} (hat : ∀ c ∈ user.getLast?, c = '@')
    (h : '@' ∉ cs) : dropUser (user ++ cs) = cs := by
  have hkept : ∀ c ∈ cs.reverse, (c != '@') = true := by
    intro c hc
    refine bne_iff_ne.2 ?_
    rintro rfl
    exact h (List.mem_reverse.1 hc)
  have hdropped : user.reverse.takeWhile (· != '@') = [] := by
    rw [← List.head?_reverse] at hat
    cases hrev : user.reverse with
    | nil => rfl
    | cons c rest => exact List.takeWhile_cons_of_neg (by simp [hat c (by rw [hrev]; rfl)])
  rw [dropUser, List.reverse_append, List.takeWhile_append_of_pos hkept, hdropped,
    List.append_nil, List.reverse_reverse]

/-- Without an at sign there is no user to drop. -/
theorem dropUser_eq_self {cs : List Char} (h : '@' ∉ cs) : dropUser cs = cs :=
  @dropUser_append [] cs (fun _ hc => nomatch hc) h

/-- Neither a blank nor an at sign, nor anything that ends an authority. -/
def isPlain (c : Char) : Bool := !Text.isBlank c && !endsAuthority c && c != '@'

/-- A host, with its port if it has one, that needs nothing dropped. -/
structure Bare (host : String) : Prop where
  nonempty : host ≠ ""
  plain : ∀ c ∈ host.toList, isPlain c = true
  colon : host.toList.getLast? ≠ some ':'
  dot : host.toList.getLast? ≠ some '.'

namespace Bare

variable {host : String}

theorem not_isBlank (h : Bare host) {c : Char} (hc : c ∈ host.toList) :
    Text.isBlank c = false := by
  have hplain := h.plain c hc
  simp only [isPlain, Bool.and_eq_true, Bool.not_eq_true'] at hplain
  exact hplain.1.1

theorem not_endsAuthority (h : Bare host) {c : Char} (hc : c ∈ host.toList) :
    endsAuthority c = false := by
  have hplain := h.plain c hc
  simp only [isPlain, Bool.and_eq_true, Bool.not_eq_true'] at hplain
  exact hplain.1.2

/-- A bare host is what is read where it stands in front of path, query or fragment. -/
theorem named_append (h : Bare host) {suffix : List Char}
    (hsuffix : ∀ c ∈ suffix.head?, endsAuthority c = true) :
    named (host.toList ++ suffix) = host.toList := by
  rw [named, authority_append (fun c hc => h.not_endsAuthority hc) hsuffix,
    dropUser_eq_self fun hat => absurd (h.plain '@' hat) (by decide)]
  refine Text.dropRight_eq_self fun c hc => ?_
  have hne : c ≠ '.' := by
    rintro rfl
    exact h.dot hc
  simpa using hne

theorem toList_ne_nil (h : Bare host) : host.toList ≠ [] := by
  simpa using h.nonempty

theorem slash_not_mem (h : Bare host) : '/' ∉ host.toList := fun hslash =>
  absurd (h.plain '/' hslash) (by decide)

/-- An address is trimmed only behind its host. -/
theorem trim_append (h : Bare host) {lead : List Char} (hlead : lead = [] ∨ lead = ['/', '/'])
    (suffix : List Char) :
    Text.trim (lead ++ (host.toList ++ suffix)) =
      lead ++ (host.toList ++ Text.dropRight Text.isBlank suffix) := by
  have hplain : ∀ c ∈ lead ++ host.toList, Text.isBlank c = false := by
    intro c hc
    rcases List.mem_append.1 hc with hc | hc
    · rcases hlead with rfl | rfl
      · cases hc
      · obtain rfl : c = '/' := by simpa using hc
        decide
    · exact h.not_isBlank hc
  have hne : lead ++ host.toList ≠ [] := by simp [h.nonempty]
  rw [← List.append_assoc, Text.trim_append hne hplain, List.append_assoc]

/-- No mark stands before the end of a bare host. The first one behind it counts; if there is none,
the host comes first. -/
theorem dropScheme_append (h : Bare host) {lead : List Char} (hlead : lead = [] ∨ lead = ['/', '/'])
    (suffix : List Char) :
    dropScheme (lead ++ (host.toList ++ suffix)) =
      (afterScheme? suffix).getD (host.toList ++ suffix) := by
  have hafter : afterScheme? (lead ++ (host.toList ++ suffix)) = afterScheme? suffix := by
    rw [← afterScheme?_append h.slash_not_mem h.colon suffix]
    rcases hlead with rfl | rfl <;> simp [afterScheme?]
  unfold dropScheme
  rw [hafter]
  cases afterScheme? suffix with
  | some rest => rfl
  | none =>
    rcases hlead with rfl | rfl
    · cases hhost : host.toList with
      | nil => exact absurd hhost h.toList_ne_nil
      | cons c cs =>
        have hc : c ≠ '/' := by
          rintro rfl
          exact h.slash_not_mem (by simp [hhost])
        simp [hc]
    · rfl

end Bare

/-- A host without a scheme is the domain of an address if no mark of a scheme follows it. Behind
the first mark that does follow, the address is read as if it started there. -/
theorem parse_bare {lead host suffix : String} (hlead : lead = "" ∨ lead = "//")
    (h : Bare host) (hsuffix : ∀ c ∈ suffix.toList.head?, endsAuthority c = true) :
    (¬ mark <:+: suffix.toList → parse (lead ++ host ++ suffix) = .ok ⟨host⟩) ∧
      ∀ front rest, suffix.toList = front ++ (mark ++ rest) → ¬ mark <:+: front →
        parse (lead ++ host ++ suffix) =
          ofHost (lead ++ host ++ suffix) (named (Text.dropRight Text.isBlank rest)) := by
  have hlead' : lead.toList = [] ∨ lead.toList = ['/', '/'] := by
    rcases hlead with rfl | rfl <;> simp
  have htrim : Text.trim (lead ++ host ++ suffix).toList =
      lead.toList ++ (host.toList ++ Text.dropRight Text.isBlank suffix.toList) := by
    rw [String.toList_append, String.toList_append, List.append_assoc, h.trim_append hlead']
  have hne : Text.trim (lead ++ host ++ suffix).toList ≠ [] := by
    rw [htrim]
    simp [h.nonempty]
  rw [parse_eq hne, htrim, h.dropScheme_append hlead']
  refine ⟨fun hmark => ?_, fun front rest hrest hmark => ?_⟩
  · have hsub : Text.dropRight Text.isBlank suffix.toList <+: suffix.toList :=
      Text.dropRight_prefix _ _
    have hnone : afterScheme? (Text.dropRight Text.isBlank suffix.toList) = none :=
      afterScheme?_eq_none_iff.2 fun hmark' => hmark (hmark'.trans hsub.isInfix)
    have hends : ∀ c ∈ (Text.dropRight Text.isBlank suffix.toList).head?,
        endsAuthority c = true := by
      intro c hc
      obtain ⟨dropped, hdropped⟩ := hsub
      refine hsuffix c ?_
      rw [← hdropped, List.head?_append, Option.mem_def.1 hc]
      rfl
    rw [hnone, Option.getD_none, h.named_append hends, ofHost_of_ne_nil _ h.toList_ne_nil,
      String.ofList_toList]
  · have hslash : ∀ c ∈ (front ++ mark).getLast?, Text.isBlank c = false := by
      intro c hc
      obtain rfl : '/' = c := by simpa [mark] using hc
      decide
    rw [hrest, ← List.append_assoc, Text.dropRight_append hslash, List.append_assoc,
      afterScheme?_append_mark hmark, Option.getD_some]

/-- A host with a port, in front of a query that names another address, without a scheme and with
one. -/
theorem parse_bare_port :
    Bare "localhost:3000" ∧
      parse ("//" ++ "localhost:3000" ++ "?next=//b.com/..") = .ok ⟨"localhost:3000"⟩ ∧
      parse ("" ++ "localhost:3000" ++ "?next=http://u@b.com./ ") = .ok ⟨"b.com"⟩ := by
  have hbare : Bare "localhost:3000" :=
    ⟨by decide, List.all_eq_true.1 rfl, by decide, by decide⟩
  have hmark : ¬ mark <:+: "?next=//b.com/..".toList := afterScheme?_eq_none_iff.1 rfl
  have hfront : ¬ mark <:+: "?next=http".toList := afterScheme?_eq_none_iff.1 rfl
  have hplain := @parse_bare "//" _ "?next=//b.com/.." (.inr rfl) hbare
    fun c hc => Option.some.inj hc ▸ rfl
  have hlink := @parse_bare "" _ "?next=http://u@b.com./ " (.inl rfl) hbare
    fun c hc => Option.some.inj hc ▸ rfl
  exact ⟨hbare, hplain.1 hmark, hlink.2 "?next=http".toList "u@b.com./ ".toList rfl hfront⟩

/-- A link in the query takes the place of the host. -/
theorem parse_bare_with_link :
    Bare "a.com" ∧ (∀ c ∈ "/?u=http://b.com/".toList.head?, endsAuthority c = true) ∧
      parse ("" ++ "a.com" ++ "/?u=http://b.com/") = .ok ⟨"b.com"⟩ ∧
      parse ("" ++ "a.com" ++ "/?u=http://b.com/") ≠ .ok ⟨"a.com"⟩ := by
  have hparse : parse ("" ++ "a.com" ++ "/?u=http://b.com/") = .ok ⟨"b.com"⟩ := rfl
  refine ⟨⟨by decide, List.all_eq_true.1 rfl, by decide, by decide⟩,
    fun c hc => Option.some.inj hc ▸ rfl, hparse, ?_⟩
  rw [hparse]
  simp

end SiteAtlas.Domain
