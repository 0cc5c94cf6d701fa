import SiteAtlas.Proofs.Json.Containers

/-!
# Texts of objects

The text of an object is made of the texts of its members: blanks, names, and for each name a text
that would be read as a value on its own. It is read as the object of these members, and nothing else
is read as an object.
-/
namespace SiteAtlas.Json

open Utf8 (Bytes)

theorem skipSpace_eq_nil_iff {s : Bytes} : skipSpace s = [] ↔ Blank s := by
  refine ⟨fun h => ?_, skipSpace_eq_nil⟩
  obtain ⟨blanks, hblanks, hs⟩ := exists_skipSpace s
  rw [h, List.append_nil] at hs
  rwa [hs]

theorem readWithin_eq_ok {d : Nat} {text : Bytes} {j : Json} :
    readWithin d text = .ok j ↔ ∃ rest, value d text = .ok (j, rest) ∧ Blank rest := by
  rw [readWithin, mapError_eq_ok, wholeText, bind_eq_ok]
  constructor
  · rintro ⟨⟨k, rest⟩, hvalue, hend⟩
    refine ⟨rest, ?_⟩
    dsimp only at hend
    split at hend
    · rename_i hrest
      cases hend
      exact ⟨hvalue, skipSpace_eq_nil_iff.1 hrest⟩
    · cases hend
  · rintro ⟨rest, hvalue, hrest⟩
    refine ⟨_, hvalue, ?_⟩
    simp only [skipSpace_eq_nil hrest]
    rfl

/-- The text of a member: its name in quotes, a colon, and a text that is read as its value on its
own. -/
def MemberText (depth : Nat) (s : Bytes) (e : String × Json) : Prop :=
  ∃ before name between value, Blank before ∧ string name = .ok (e.1, []) ∧ Blank between ∧
    readWithin depth value = .ok e.2 ∧
    s = before ++ ascii '"' :: (name ++ (between ++ ascii ':' :: value))

/-- The text of an object: its members between braces, in the order of the text, with every name as
often as it is there. Their values nest to the given depth at most. -/
def ObjectText (depth : Nat) (text : Bytes) (ms : List (String × Json)) : Prop :=
  ∃ before body after, Blank before ∧ BodyText (MemberText depth) body ms ∧ Blank after ∧
    text = before ++ ascii '\x7b' :: (body ++ ascii '\x7d' :: after)

/-- What is read as a member is the text of one. -/
theorem entryText_memberWith (d : Nat) :
    EntryText (· = ascii '"') (memberWith (value d)) = MemberText d := by
  ext s e
  constructor
  · rintro ⟨before, b, used, after, hbefore, rfl, hafter, rfl, hused⟩
    have halone := hused [] trivial
    rw [List.append_nil] at halone
    obtain ⟨_, name, between, t, hname, hbetween, hs, hvalue⟩ := memberWith_eq_ok.1 halone
    obtain ⟨-, rfl⟩ := List.cons.inj hs
    obtain ⟨used, ht, hused⟩ := local_value d _ _ _ hvalue
    obtain rfl : t = used := by simpa using ht
    refine ⟨before, name, between, t ++ after, hbefore, hname, hbetween, ?_, by simp⟩
    exact readWithin_eq_ok.2 ⟨after, hused after (endsNumber_of_isSpace hafter), hafter⟩
  · rintro ⟨before, name, between, text, hbefore, hname, hbetween, htext, rfl⟩
    obtain ⟨after, hvalue, hafter⟩ := readWithin_eq_ok.1 htext
    obtain ⟨used, rfl, hused⟩ := local_value d _ _ _ hvalue
    refine ⟨before, ascii '"', name ++ (between ++ ascii ':' :: used), after, hbefore, rfl, hafter,
      by simp, fun rest hrest => ?_⟩
    exact memberWith_eq_ok.2 ⟨ascii '"', name, between, used ++ rest, hname, hbetween, by simp,
      hused rest hrest⟩

/-- The members of a text are those that are read behind its brace. -/
theorem objectText_iff {d : Nat} {text : Bytes} {ns : List (String × Json)} :
    ObjectText d text ns ↔
      ∃ before s after, Blank before ∧ Blank after ∧ text = before ++ ascii '\x7b' :: s ∧
        members (value d) (ascii '\x7b' :: s) true s = .ok (ns, after) := by
  simp only [ObjectText, ← entryText_memberWith, members_eq_ok (local_value d)]
  constructor
  · rintro ⟨before, body, after, hbefore, hbody, hafter, rfl⟩
    exact ⟨before, _, after, hbefore, hafter, rfl, body, rfl, hbody⟩
  · rintro ⟨before, _, after, hbefore, hafter, rfl, body, rfl, hbody⟩
    exact ⟨before, body, after, hbefore, hbody, hafter, rfl⟩

/-- A text has one list of members only. -/
theorem ObjectText.unique {d : Nat} {text : Bytes} {ns ms : List (String × Json)}
    (hns : ObjectText d text ns) (hms : ObjectText d text ms) : ns = ms := by
  obtain ⟨before, s, after, hbefore, -, rfl, hs⟩ := objectText_iff.1 hns
  obtain ⟨blanks, t, rest, hblanks, -, htext, ht⟩ := objectText_iff.1 hms
  have hskip := congrArg skipSpace htext
  rw [skipSpace_append hbefore, skipSpace_append hblanks, skipSpace_cons (by decide),
    skipSpace_cons (by decide)] at hskip
  obtain rfl := (List.cons.inj hskip).2
  exact congrArg Prod.fst (Except.ok.inj (hs.symm.trans ht))

/-- What is read as an object is the text of one; of equal names the last one counts. -/
theorem readWithin_eq_object {d : Nat} {text : Bytes} {ms : List (String × Json)} :
    readWithin (d + 1) text = .ok (.object ms) ↔
      ∃ ns, ObjectText d text ns ∧ sortEntries ns = ms := by
  simp only [readWithin_eq_ok, value, valueWith_eq_object, objectText_iff]
  constructor
  · rintro ⟨after, ⟨before, b, s, hbefore, rfl | rfl, rfl, hread⟩, hafter⟩
    · obtain ⟨js, -, hjs⟩ := map_eq_ok.1 hread
      cases hjs
    · obtain ⟨⟨ns, rest⟩, hns, hms⟩ := map_eq_ok.1 hread
      cases hms
      exact ⟨ns, ⟨before, s, rest, hbefore, hafter, rfl, hns⟩, rfl⟩
  · rintro ⟨ns, ⟨before, s, after, hbefore, hafter, rfl, hns⟩, rfl⟩
    exact ⟨after, ⟨before, _, s, hbefore, .inr rfl, rfl, map_eq_ok.2 ⟨(ns, after), hns, rfl⟩⟩,
      hafter⟩

/-- The value of each member is read from a text of its own. -/
theorem ObjectText.exists_read {d : Nat} {text : Bytes} {ns : List (String × Json)}
    (h : ObjectText d text ns) {e : String × Json} (he : e ∈ ns) :
    ∃ s, readWithin d s = .ok e.2 := by
  obtain ⟨-, body, -, -, ⟨-, rfl⟩ | hbody, -⟩ := h
  · cases he
  · obtain ⟨s, -, -, -, value, -, -, -, hvalue, -⟩ := hbody.exists_of_mem he
    exact ⟨value, hvalue⟩

/-- A printed member is the text of that member. -/
theorem memberText_chars {d : Nat} {e : String × Json} (hf : FloatFree e.2) (hc : Canonical e.2)
    (hd : depth e.2 ≤ d) :
    MemberText d (Utf8.encode (stringText e.1 ++ ':' :: e.2.chars)) e := by
  refine ⟨[], Utf8.encode (e.1.toList.flatMap escapeChar) ++ [ascii '"'], [],
    Utf8.encode e.2.chars, nofun, string_flatMap e.1 [], nofun, readWithin_chars hf hc hd, ?_⟩
  rw [Utf8.encode_append, Utf8.encode_cons, encode_stringText, List.cons_append]
  rfl

theorem entriesText_chars {d : Nat} {e : String × Json} {ms : List (String × Json)}
    (h : ∀ f ∈ e :: ms, FloatFree f.2 ∧ Canonical f.2 ∧ depth f.2 ≤ d) :
    ∃ t, Utf8.encode (stringText e.1 ++ ':' :: (e.2.chars ++ membersChars ms)) =
      t ++ [ascii '\x7d'] ∧ EntriesText (MemberText d) t (e :: ms) := by
  have hsplit (e : String × Json) (cs : List Char) : stringText e.1 ++ ':' :: (e.2.chars ++ cs) =
      (stringText e.1 ++ ':' :: e.2.chars) ++ cs := by simp
  induction ms generalizing e with
  | nil =>
    obtain ⟨hf, hc, hd⟩ := h e List.mem_cons_self
    exact ⟨_, by rw [hsplit, Utf8.encode_append]; rfl, .one (memberText_chars hf hc hd)⟩
  | cons f ms ih =>
    obtain ⟨⟨hf, hc, hd⟩, hms⟩ := List.forall_mem_cons.1 h
    obtain ⟨t, ht, htext⟩ := ih hms
    refine ⟨_, ?_, .more (memberText_chars hf hc hd) htext⟩
    rw [hsplit, Utf8.encode_append, membersChars, Utf8.encode_cons, ht, List.append_assoc]
    rfl

/-- Printed members are the text of an object, in any order and with any names. -/
theorem objectText_chars {d : Nat} {ms : List (String × Json)}
    (h : ∀ e ∈ ms, FloatFree e.2 ∧ Canonical e.2 ∧ depth e.2 ≤ d) :
    ObjectText d (Utf8.encode (chars (.object ms))) ms := by
  cases ms with
  | nil => exact ⟨[], [], [], nofun, .inl ⟨nofun, rfl⟩, nofun, rfl⟩
  | cons e ms =>
    obtain ⟨t, ht, htext⟩ := entriesText_chars h
    refine ⟨[], t, [], nofun, .inr htext, nofun, ?_⟩
    rw [chars, Utf8.encode_cons, ht]
    rfl

end SiteAtlas.Json
