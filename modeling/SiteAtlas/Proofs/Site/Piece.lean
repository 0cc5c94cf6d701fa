import SiteAtlas.Proofs.Site.Address

/-!
# Domains as pieces of addresses

A domain is cut out of its address. In front of it stand blanks, a scheme and a user, behind it
dots, a path, query or fragment, and blanks, and each of these may be missing. So an address has a
domain if and only if something is left between them. What is left is clean: it holds nothing that
ends an authority and no at sign, and no dot stands at its end.
-/
namespace SiteAtlas.Domain

/-- What stands in front of the rest of an address: a scheme with the first mark; without a mark,
two slashes; without these, nothing. -/
inductive Leads : List Char → List Char → Prop
  | scheme {scheme rest : List Char} (first : ¬mark <:+: scheme) : Leads (scheme ++ mark) rest
  | slashes {rest : List Char} (unmarked : ¬mark <:+: '/' :: '/' :: rest) : Leads ['/', '/'] rest
  | nothing {rest : List Char} (unmarked : ¬mark <:+: rest) (bare : ¬['/', '/'] <+: rest) :
    Leads [] rest

/-- A trimmed address with its host and what is around it. -/
inductive Names (address host : List Char) : Prop
  | intro {lead user dots suffix : List Char}
    (text : address = lead ++ (user ++ (host ++ dots) ++ suffix))
    (leads : Leads lead (user ++ (host ++ dots) ++ suffix))
    (userEnd : ∀ c ∈ user.getLast?, c = '@')
    (authority : ∀ c ∈ user, endsAuthority c = false)
    (cut : Cut host)
    (dot : ∀ c ∈ dots, c = '.')
    (suffixStart : ∀ c ∈ suffix.head?, endsAuthority c = true)

theorem exists_lead (cs : List Char) :
    ∃ lead, cs = lead ++ dropScheme cs ∧ Leads lead (dropScheme cs) := by
  unfold dropScheme
  split
  · rename_i rest hrest
    obtain ⟨scheme, hcs, hscheme⟩ := exists_scheme hrest
    exact ⟨scheme ++ mark, by rw [hcs, List.append_assoc], .scheme hscheme⟩
  · rename_i hnone
    have hmark := afterScheme?_eq_none_iff.1 hnone
    split
    · exact ⟨['/', '/'], rfl, .slashes hmark⟩
    · rename_i hbare
      refine ⟨[], rfl, .nothing hmark ?_⟩
      rintro ⟨rest, rfl⟩
      exact hbare rest rfl

theorem Leads.dropScheme {lead rest : List Char} (h : Leads lead rest) :
    dropScheme (lead ++ rest) = rest := by
  unfold Domain.dropScheme
  cases h with
  | scheme first => rw [List.append_assoc, afterScheme?_append_mark first]
  | slashes unmarked =>
    rw [List.cons_append, List.cons_append, List.nil_append, afterScheme?_eq_none_iff.2 unmarked]
    rfl
  | nothing unmarked bare =>
    rw [List.nil_append, afterScheme?_eq_none_iff.2 unmarked]
    dsimp only
    split
    · rename_i more
      exact absurd ⟨more, rfl⟩ bare
    · rfl

theorem exists_user (cs : List Char) :
    ∃ user, cs = user ++ dropUser cs ∧ ∀ c ∈ user.getLast?, c = '@' := by
  refine ⟨Text.dropRight (· != '@') cs, (Text.dropRight_append_dropped _ cs).symm, fun c hc => ?_⟩
  simpa using Text.getLast?_dropRight c hc

theorem exists_dots (cs : List Char) :
    ∃ dots, cs = Text.dropRight (· == '.') cs ++ dots ∧ ∀ c ∈ dots, c = '.' := by
  refine ⟨_, (Text.dropRight_append_dropped _ cs).symm, fun c hc => ?_⟩
  simpa using List.mem_takeWhile_imp (List.mem_reverse.1 hc)

/-- What stands around a host in an authority is dropped. -/
theorem Cut.named_around {user host dots suffix : List Char} (h : Cut host)
    (userEnd : ∀ c ∈ user.getLast?, c = '@') (authority : ∀ c ∈ user, endsAuthority c = false)
    (dot : ∀ c ∈ dots, c = '.') (suffixStart : ∀ c ∈ suffix.head?, endsAuthority c = true) :
    named (user ++ (host ++ dots) ++ suffix) = host := by
  have hauthority : ∀ c ∈ user ++ (host ++ dots), endsAuthority c = false := by
    simp only [List.forall_mem_append]
    refine ⟨authority, h.authority, fun c hc => ?_⟩
    rw [dot c hc]
    decide
  have hat : '@' ∉ host ++ dots := by
    rw [List.mem_append, not_or]
    exact ⟨h.user, fun hdot => absurd (dot '@' hdot) (by decide)⟩
  rw [named, authority_append hauthority suffixStart, dropUser_append userEnd hat,
    h.dropRight_append dot]

/-- An address has the domain that it names, and no other. -/
theorem parse_eq_ok_iff {input : String} {d : Domain} :
    parse input = .ok d ↔ Names (Text.trim input.toList) d.text.toList := by
  constructor
  · intro h
    obtain ⟨-, htext⟩ := parse_eq_ok h
    have hcut := cut_of_parse h
    obtain ⟨lead, hlead, hleads⟩ := exists_lead (Text.trim input.toList)
    generalize dropScheme (Text.trim input.toList) = rest at hlead hleads htext
    obtain ⟨user, huser, userEnd⟩ := exists_user (authority rest)
    obtain ⟨dots, hdots, hdot⟩ := exists_dots (dropUser (authority rest))
    have hauthority : authority rest = user ++ (d.text.toList ++ dots) := by
      rw [htext, named, ← hdots, ← huser]
    have hrest : rest = user ++ (d.text.toList ++ dots) ++ rest.dropWhile (!endsAuthority ·) := by
      rw [← hauthority]
      exact List.takeWhile_append_dropWhile.symm
    refine ⟨hlead.trans (congrArg (lead ++ ·) hrest), by rwa [← hrest], userEnd, fun c hc => ?_,
      hcut, hdot, fun c hc => ?_⟩
    · have hmem : c ∈ authority rest := hauthority ▸ List.mem_append_left _ hc
      simpa using List.mem_takeWhile_imp hmem
    · have hhead := List.head?_dropWhile_not (!endsAuthority ·) rest
      rw [Option.mem_def.1 hc] at hhead
      simpa using hhead
  · rintro ⟨htext, hleads, userEnd, hauthority, hcut, hdot, suffixStart⟩
    have hne : Text.trim input.toList ≠ [] := by
      rw [htext]
      simp [hcut.nonempty]
    rw [parse_eq hne, htext, hleads.dropScheme,
      hcut.named_around userEnd hauthority hdot suffixStart, ofHost_of_ne_nil _ hcut.nonempty,
      String.ofList_toList]

/-- Every address either is refused as invalid input or has a domain, which is a piece of it that is
not empty, has no slash, question mark, number sign or at sign, and does not end in a dot. It has
one if and only if it names one between its other parts. -/
theorem parse_piece (input : String) :
    ((∃ why, parse input = .error why ∧ (ClientError.rejected why).kind = .invalidInput) ∨
      ∃ d, parse input = .ok d ∧ d.text ≠ "" ∧
        (∃ before after, input = before ++ d.text ++ after) ∧
        (∀ c ∈ d.text.toList, c ∉ ['/', '?', '#', '@']) ∧
        d.text.toList.getLast? ≠ some '.') ∧
    ∀ d, parse input = .ok d ↔ Names (Text.trim input.toList) d.text.toList := by
  refine ⟨?_, fun d => parse_eq_ok_iff⟩
  cases hparse : parse input with
  | error why => exact .inl ⟨why, rfl, rfl⟩
  | ok d =>
    have hcut := cut_of_parse hparse
    obtain ⟨before, after, hinput⟩ := (infix_of_parse hparse).trans (Text.trim_isInfix _)
    refine .inr ⟨d, rfl, ?_, ⟨.ofList before, .ofList after, ?_⟩, fun c hc hends => ?_, hcut.dot⟩
    · simpa using hcut.nonempty
    · rw [← String.toList_inj, String.toList_append, String.toList_append, String.toList_ofList,
        String.toList_ofList, hinput]
    · simp only [List.mem_cons, List.not_mem_nil, or_false] at hends
      obtain rfl | rfl | rfl | rfl := hends
      · exact absurd (hcut.authority '/' hc) (by decide)
      · exact absurd (hcut.authority '?' hc) (by decide)
      · exact absurd (hcut.authority '#' hc) (by decide)
      · exact hcut.user hc

end SiteAtlas.Domain
