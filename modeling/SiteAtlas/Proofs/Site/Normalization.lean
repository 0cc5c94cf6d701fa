import SiteAtlas.Proofs.Site.Domain
import SiteAtlas.Proofs.Text.Blank

/-!
# Normalizing a domain again

Blanks are trimmed once, before scheme, user and path are cut off, so a domain may begin or end with
a blank that one of these hid. When its text is read again there is nothing left to cut off but such
blanks and the dots before them: a domain is read as itself if it has no blank at its ends, and as a
shorter one, or not at all, if it has.
-/
namespace SiteAtlas

namespace Domain

/-- A text in which there is no path, query, fragment or user to cut off, and no dot at the end. -/
structure Cut (cs : List Char) : Prop where
  nonempty : cs ≠ []
  authority : ∀ c ∈ cs, endsAuthority c = false
  user : '@' ∉ cs
  dot : cs.getLast? ≠ some '.'

/-- The dots behind a host are dropped, and nothing of the host. -/
theorem Cut.dropRight_append {host dots : List Char} (h : Cut host) (hdots : ∀ c ∈ dots, c = '.') :
    Text.dropRight (· == '.') (host ++ dots) = host := by
  refine Text.dropRight_append_eq_self (fun c hc => ?_) fun c hc => by simp [hdots c hc]
  refine beq_eq_false_iff_ne.2 ?_
  rintro rfl
  exact h.dot hc

theorem ofHost_eq_ok {input : String} {host : List Char} {d : Domain} :
    ofHost input host = .ok d ↔ host ≠ [] ∧ d.text.toList = host := by
  cases host with
  | nil => simp [ofHost]
  | cons c host =>
    obtain ⟨text⟩ := d
    simp [ofHost, ← String.toList_inj, eq_comm]

/-- The domain of an address is its host. -/
theorem parse_eq_ok {input : String} {d : Domain} (h : parse input = .ok d) :
    d.text.toList ≠ [] ∧ d.text.toList = named (dropScheme (Text.trim input.toList)) := by
  have hne : Text.trim input.toList ≠ [] := by
    intro hnil
    rw [parse, hnil] at h
    cases h
  rw [parse_eq hne, ofHost_eq_ok] at h
  rw [h.2]
  exact ⟨h.1, rfl⟩

theorem dropUser_suffix (cs : List Char) : dropUser cs <:+ cs := by
  rw [dropUser, ← List.reverse_prefix, List.reverse_reverse]
  exact List.takeWhile_prefix _

theorem named_infix_authority (cs : List Char) : named cs <:+: authority cs :=
  (Text.dropRight_isInfix _ _).trans (dropUser_suffix _).isInfix

theorem user_not_mem_named {cs : List Char} : '@' ∉ named cs := by
  intro hat
  have hat : '@' ∈ dropUser (authority cs) := (Text.dropRight_isInfix _ _).subset hat
  exact absurd (List.mem_takeWhile_imp (List.mem_reverse.1 hat)) (by decide)

/-- In a domain there is nothing to cut off any more. -/
theorem cut_of_parse {input : String} {d : Domain} (h : parse input = .ok d) :
    Cut d.text.toList := by
  obtain ⟨hne, htext⟩ := parse_eq_ok h
  refine ⟨hne, ?_, ?_, ?_⟩
  · intro c hc
    rw [htext] at hc
    simpa using List.mem_takeWhile_imp ((named_infix_authority _).subset hc)
  · rw [htext]
    exact user_not_mem_named
  · intro hdot
    rw [htext] at hdot
    exact absurd (Text.getLast?_dropRight '.' hdot) (by decide)

/-- A scheme reaches up to the first mark. -/
theorem exists_scheme {cs rest : List Char} (h : afterScheme? cs = some rest) :
    ∃ scheme, cs = scheme ++ (mark ++ rest) ∧ ¬mark <:+: scheme := by
  induction cs with
  | nil => cases h
  | cons c cs ih =>
    by_cases hmark : mark <+: c :: cs
    · obtain ⟨tail, htail⟩ := hmark
      rw [← htail] at h ⊢
      obtain rfl : tail = rest := Option.some.inj h
      exact ⟨[], rfl, by decide⟩
    · rw [afterScheme?_cons hmark] at h
      obtain ⟨scheme, rfl, hscheme⟩ := ih h
      refine ⟨c :: scheme, rfl, ?_⟩
      rw [List.infix_cons_iff, not_or]
      exact ⟨fun hfront => hmark (hfront.trans (List.prefix_append (c :: scheme) _)), hscheme⟩

theorem dropScheme_suffix (cs : List Char) : dropScheme cs <:+ cs := by
  unfold dropScheme
  split
  · rename_i rest hrest
    obtain ⟨scheme, rfl, -⟩ := exists_scheme hrest
    exact (List.suffix_append mark rest).trans (List.suffix_append scheme _)
  · split
    · rename_i rest _
      exact List.suffix_append ['/', '/'] rest
    · exact List.suffix_refl _

/-- A domain is a piece of the trimmed address. -/
theorem infix_of_parse {input : String} {d : Domain} (h : parse input = .ok d) :
    d.text.toList <:+: Text.trim input.toList := by
  rw [(parse_eq_ok h).2]
  exact ((named_infix_authority _).trans (List.takeWhile_prefix _).isInfix).trans
    (dropScheme_suffix _).isInfix

namespace Cut

variable {cs : List Char}

theorem slash_not_mem (h : Cut cs) : '/' ∉ cs := fun hslash =>
  absurd (h.authority '/' hslash) (by decide)

/-- Whatever is trimmed, there is nothing else to cut off. -/
theorem named_trim (h : Cut cs) :
    named (dropScheme (Text.trim cs)) = Text.dropRight (· == '.') (Text.trim cs) := by
  have hsub : Text.trim cs ⊆ cs := (Text.trim_isInfix cs).subset
  have hslash : '/' ∉ Text.trim cs := fun hm => h.slash_not_mem (hsub hm)
  have hscheme : afterScheme? (Text.trim cs) = none :=
    afterScheme?_eq_none_iff.2 fun hmark => hslash (hmark.subset (by decide))
  have hdrop : dropScheme (Text.trim cs) = Text.trim cs := by
    unfold dropScheme
    rw [hscheme]
    dsimp only
    split
    · rename_i rest hlead
      rw [hlead] at hslash
      exact absurd List.mem_cons_self hslash
    · rfl
  have hauthority : Domain.authority (Text.trim cs) = Text.trim cs :=
    List.takeWhile_eq_self_iff.2 fun c hc => by simp [h.authority c (hsub hc)]
  rw [hdrop, named, hauthority, dropUser_eq_self fun hat => h.user (hsub hat)]

/-- A text with nothing to cut off is trimmed, and loses the dots that this uncovers. -/
theorem parse_eq_ofHost {text : String} (h : Cut text.toList)
    (hne : Text.trim text.toList ≠ []) :
    parse text = ofHost text (Text.dropRight (· == '.') (Text.trim text.toList)) := by
  rw [parse_eq hne, h.named_trim]

end Cut

theorem parse_eq_emptyDomain {text : String} (h : Text.trim text.toList = []) :
    parse text = .error .emptyDomain := by
  rw [parse, h]

/-- What a domain is read as is a piece of it. -/
theorem Cut.infix_of_parse {text : String} (h : Cut text.toList) {e : Domain}
    (he : parse text = .ok e) :
    e.text.toList = Text.dropRight (· == '.') (Text.trim text.toList) ∧
      e.text.toList <:+: Text.trim text.toList := by
  have hne : Text.trim text.toList ≠ [] := by
    intro hnil
    rw [parse_eq_emptyDomain hnil] at he
    cases he
  rw [h.parse_eq_ofHost hne, ofHost_eq_ok] at he
  rw [he.2]
  exact ⟨rfl, Text.dropRight_isInfix _ _⟩

theorem Cut.parse_eq_self {text : String} (h : Cut text.toList)
    (htrim : Text.Trimmed text.toList) : parse text = .ok ⟨text⟩ := by
  have heq : Text.trim text.toList = text.toList := Text.trim_eq_self_iff.2 htrim
  have hdot : Text.dropRight (· == '.') text.toList = text.toList := by
    simpa using @Cut.dropRight_append text.toList [] h nofun
  have hne : Text.trim text.toList ≠ [] := by
    rw [heq]
    exact h.nonempty
  rw [h.parse_eq_ofHost hne, heq, hdot, ofHost_of_ne_nil _ h.nonempty, String.ofList_toList]

/-- The text of a domain is read as the same domain if no blank stands at its ends, and only then.
If one does, what it is read as is shorter, if it is a domain at all. No blank stands there if the
address had none but around it. -/
theorem parse_again {input : String} {d : Domain} (h : parse input = .ok d) :
    (parse d.text = .ok d ↔ Text.Trimmed d.text.toList) ∧
      (Text.trim d.text.toList = [] → parse d.text = .error .emptyDomain) ∧
      (Text.trim d.text.toList ≠ [] → parse d.text =
        ofHost d.text (Text.dropRight (· == '.') (Text.trim d.text.toList))) ∧
      (∀ e, parse d.text = .ok e → e = d ∨ e.text.length < d.text.length) ∧
      ((∀ c ∈ Text.trim input.toList, Text.isBlank c = false) → parse d.text = .ok d) := by
  have hcut := cut_of_parse h
  have hself (htrim : Text.Trimmed d.text.toList) : parse d.text = .ok d := hcut.parse_eq_self htrim
  refine ⟨⟨fun hagain => ?_, hself⟩, parse_eq_emptyDomain, hcut.parse_eq_ofHost, fun e he => ?_,
    fun hblank => ?_⟩
  · have hlength := (hcut.infix_of_parse hagain).2.length_le
    exact Text.trim_eq_self_iff.1 ((Text.trim_isInfix _).eq_of_length_le hlength)
  · have hpiece := (hcut.infix_of_parse he).2.trans (Text.trim_isInfix _)
    rcases Nat.lt_or_eq_of_le hpiece.length_le with hlt | heq
    · exact .inr hlt
    · have htext : e.text = d.text := String.toList_inj.1 (hpiece.eq_of_length heq)
      exact .inl (congrArg Domain.mk htext)
  · have hsub := (infix_of_parse h).subset
    exact hself ⟨fun c hc => hblank c (hsub (List.mem_of_head? hc)),
      fun c hc => hblank c (hsub (List.mem_of_getLast? hc))⟩

/-- A domain between blanks is read again as what they surround, with one more dot dropped; one
without them is read as itself. -/
theorem parse_again_hidden :
    parse "//user@ a.com. /path" = .ok ⟨" a.com. "⟩ ∧
      parse " a.com. " = .ok ⟨"a.com"⟩ ∧
      parse "\t https://user@shop.example.com./cart " = .ok ⟨"shop.example.com"⟩ ∧
      parse "shop.example.com" = .ok ⟨"shop.example.com"⟩ := by
  have hhidden : parse "//user@ a.com. /path" = .ok ⟨" a.com. "⟩ := rfl
  have hplain : parse "\t https://user@shop.example.com./cart " = .ok ⟨"shop.example.com"⟩ := rfl
  have hblank := (parse_again hhidden).2.2.1 (by decide)
  have htrimmed : Text.Trimmed "shop.example.com".toList :=
    ⟨fun c hc => Option.some.inj hc ▸ rfl, fun c hc => Option.some.inj hc ▸ rfl⟩
  exact ⟨hhidden, hblank, hplain, (parse_again hplain).1.2 htrimmed⟩

/-- A blank behind the scheme belongs to the domain, and is trimmed when the domain is read again; a
domain that is nothing but a blank is then refused. -/
theorem parse_again_blank :
    parse "http:// a.com" = .ok ⟨" a.com"⟩ ∧ parse " a.com" = .ok ⟨"a.com"⟩ ∧
      parse " a.com" ≠ .ok ⟨" a.com"⟩ ∧
      parse "http:// /" = .ok ⟨" "⟩ ∧ parse " " = .error .emptyDomain := by
  have hagain : parse " a.com" = .ok ⟨"a.com"⟩ := rfl
  refine ⟨rfl, hagain, ?_, rfl, rfl⟩
  rw [hagain]
  simp

end Domain

end SiteAtlas
