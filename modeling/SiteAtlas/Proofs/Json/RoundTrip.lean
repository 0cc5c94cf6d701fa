import SiteAtlas.Proofs.Json.Numbers
import SiteAtlas.Proofs.Json.Strings

/-!
# Printed values read back up to the depth limit

A value without floats reads back from its text if it nests at most as deep as the reader allows,
and is refused as too deep otherwise. The induction is on the depth allowed: a container is read by
the reader of its items, which allows one level less. Items and members are entries that are read
one after another, so what both need is proved of entries.
-/
namespace SiteAtlas.Json

open Utf8 (Bytes)

/-- A reader gives the value back and leaves what follows its text. -/
def ReadsBack (item : Bytes → Except Stop (Parsed Json)) (j : Json) : Prop :=
  ∀ rest, EndsNumber rest → item (Utf8.encode j.chars ++ rest) = .ok (j, rest)

/-- A reader stops inside the text of the value, for its depth. -/
def TooDeep (item : Bytes → Except Stop (Parsed Json)) (j : Json) : Prop :=
  ∀ rest, EndsNumber rest → ∃ left, item (Utf8.encode j.chars ++ rest) = .error ⟨.tooDeep, left⟩

/-- A reader that reads the value back if it nests at most `d` deep, and stops there otherwise. -/
structure Limited (item : Bytes → Except Stop (Parsed Json)) (d : Nat) (j : Json) : Prop where
  back : depth j ≤ d → ReadsBack item j
  deep : d < depth j → TooDeep item j

theorem itemsFloatFree_iff {js : List Json} : ItemsFloatFree js ↔ ∀ j ∈ js, FloatFree j := by
  induction js with
  | nil => simp [ItemsFloatFree]
  | cons j js ih => simp [ItemsFloatFree, ih]

theorem itemsCanonical_iff {js : List Json} : ItemsCanonical js ↔ ∀ j ∈ js, Canonical j := by
  induction js with
  | nil => simp [ItemsCanonical]
  | cons j js ih => simp [ItemsCanonical, ih]

theorem itemsDepth_le_iff {js : List Json} {d : Nat} :
    itemsDepth js ≤ d ↔ ∀ j ∈ js, depth j ≤ d := by
  induction js with
  | nil => simp [itemsDepth]
  | cons j js ih => simp only [itemsDepth, Nat.max_le, ih, List.forall_mem_cons]

theorem membersFloatFree_iff {ms : List (String × Json)} :
    MembersFloatFree ms ↔ ∀ e ∈ ms, FloatFree e.2 := by
  induction ms with
  | nil => simp [MembersFloatFree]
  | cons e ms ih => simp only [MembersFloatFree, ih, List.forall_mem_cons]

theorem membersCanonical_iff {ms : List (String × Json)} :
    MembersCanonical ms ↔ ∀ e ∈ ms, Canonical e.2 := by
  induction ms with
  | nil => simp [MembersCanonical]
  | cons e ms ih => simp only [MembersCanonical, ih, List.forall_mem_cons]

theorem membersDepth_le_iff {ms : List (String × Json)} {d : Nat} :
    membersDepth ms ≤ d ↔ ∀ e ∈ ms, depth e.2 ≤ d := by
  induction ms with
  | nil => simp [membersDepth]
  | cons e ms ih => simp only [membersDepth, Nat.max_le, ih, List.forall_mem_cons]

theorem skipSpace_cons {b : UInt8} (h : isSpace b = false) (s : Bytes) :
    skipSpace (b :: s) = b :: s :=
  List.dropWhile_cons_of_neg (by simp [h])

theorem not_isSpace_of_isDigit {b : UInt8} (h : isDigit b = true) :
    isSpace b = false ∧ b ≠ ascii ']' := by
  constructor
  · rw [Bool.eq_false_iff]
    intro hs
    simp only [isSpace, Bool.or_eq_true, beq_iff_eq, or_assoc] at hs
    rcases hs with rfl | rfl | rfl | rfl <;> exact absurd h (by decide)
  · rintro rfl
    exact absurd h (by decide)

/-- The text of an integer starts with a sign or a digit. -/
theorem encode_intText (n : Int) :
    ∃ b r, Utf8.encode (intText n) = b :: r ∧ (b = ascii '-' ∨ isDigit b = true) := by
  cases n with
  | ofNat n =>
    cases h : Utf8.encode (natDigits n) with
    | nil =>
      rw [encode_natDigits] at h
      exact absurd (List.map_eq_nil_iff.1 h) Nat.toDigits_ne_nil
    | cons b r =>
      exact ⟨b, r, h, .inr (isDigit_of_mem_encode_natDigits (n := n) (h ▸ List.mem_cons_self))⟩
  | negSucc n => exact ⟨ascii '-', Utf8.encode (natDigits (n + 1)), rfl, .inl rfl⟩

/-- A printed value starts neither with a blank nor with a closing bracket. -/
theorem encode_chars {j : Json} (hf : FloatFree j) :
    ∃ b r, Utf8.encode j.chars = b :: r ∧ isSpace b = false ∧ b ≠ ascii ']' := by
  cases j with
  | null => exact ⟨_, _, rfl, by decide, by decide⟩
  | bool b => cases b <;> exact ⟨_, _, rfl, by decide, by decide⟩
  | int n =>
    obtain ⟨b, r, h, hb⟩ := encode_intText n
    refine ⟨b, r, h, ?_⟩
    rcases hb with rfl | hb
    · exact ⟨by decide, by decide⟩
    · exact not_isSpace_of_isDigit hb
  | float x => exact hf.elim
  | text t => exact ⟨_, _, rfl, by decide, by decide⟩
  | list js => cases js <;> exact ⟨_, _, rfl, by decide, by decide⟩
  | object ms => cases ms <;> exact ⟨_, _, rfl, by decide, by decide⟩

theorem endsNumber_itemsChars (js : List Json) (rest : Bytes) :
    EndsNumber (Utf8.encode (itemsChars js) ++ rest) := by
  cases js <;> exact ⟨by decide, by decide, by decide, by decide⟩

theorem endsNumber_membersChars (ms : List (String × Json)) (rest : Bytes) :
    EndsNumber (Utf8.encode (membersChars ms) ++ rest) := by
  cases ms <;> exact ⟨by decide, by decide, by decide, by decide⟩

theorem valueWith_number (container : Bytes → Except Stop (Parsed Json)) {b : UInt8}
    (h : b = ascii '-' ∨ isDigit b = true) (s : Bytes) :
    valueWith container (b :: s) = number (b :: s) := by
  have hspace : isSpace b = false := by
    rcases h with rfl | h
    · decide
    · exact (not_isSpace_of_isDigit h).1
  have hne : ∀ c ∈ ['n', 't', 'f', '"'], b ≠ ascii c := by
    intro c hc
    rintro rfl
    simp only [List.mem_cons, List.not_mem_nil, or_false] at hc
    rcases hc with rfl | rfl | rfl | rfl <;> exact absurd h (by decide)
  have hnumber : (b = ascii '-' || isDigit b) = true := by simpa using h
  rw [valueWith, skipSpace_cons hspace]
  simp only [if_neg (hne 'n' (by decide)), if_neg (hne 't' (by decide)),
    if_neg (hne 'f' (by decide)), if_neg (hne '"' (by decide)), hnumber, if_true]

theorem valueWith_text (container : Bytes → Except Stop (Parsed Json)) (t : String) (s : Bytes) :
    valueWith container (Utf8.encode (stringText t) ++ s) = .ok (.text t, s) := by
  rw [encode_stringText, List.cons_append, List.append_assoc, List.singleton_append, valueWith,
    skipSpace_cons (by decide)]
  simp only [if_neg (show ascii '"' ≠ ascii 'n' by decide),
    if_neg (show ascii '"' ≠ ascii 't' by decide), if_neg (show ascii '"' ≠ ascii 'f' by decide),
    if_true, string_flatMap]
  rfl

/-- A scalar reads back, whatever reads the containers. -/
theorem readsBack_scalar (container : Bytes → Except Stop (Parsed Json)) {j : Json}
    (hd : depth j = 0) (hf : FloatFree j) (hc : Canonical j) :
    ReadsBack (valueWith container) j := by
  intro rest hr
  cases j with
  | null => rfl
  | bool b => cases b <;> rfl
  | int n =>
    obtain ⟨b, r, hb, hsign⟩ := encode_intText n
    have hread := number_intText hc hr
    rw [hb, List.cons_append] at hread
    rw [chars, hb, List.cons_append, valueWith_number container hsign, hread]
  | float x => exact hf.elim
  | text t => exact valueWith_text container t rest
  | list js => simp [depth] at hd
  | object ms => simp [depth] at hd

/-- A container is left to its reader. -/
theorem valueWith_container (container : Bytes → Except Stop (Parsed Json)) {j : Json}
    (hd : 0 < depth j) (rest : Bytes) :
    valueWith container (Utf8.encode j.chars ++ rest) =
      container (Utf8.encode j.chars ++ rest) := by
  cases j with
  | null | bool | int | float | text => simp [depth] at hd
  | list js => cases js <;> rfl
  | object ms => cases ms <;> rfl

variable {α : Type} {item : Bytes → Except Stop (Parsed Json)} {d : Nat}

def thenMore (entry : Json → α) (first : Except Stop (Parsed Json))
    (more : Bytes → Except Stop (Parsed (List α))) : Except Stop (Parsed (List α)) := do
  let (j, s) ← first
  let (es, s) ← more s
  return (entry j :: es, s)

/-- Entries are read as they are if all their values are shallow, and one deep value stops them. -/
structure LimitedEntries (d : Nat) (val : α → Json) (es : List α) (rest : Bytes)
    (result : Except Stop (Parsed (List α))) : Prop where
  back : (∀ e ∈ es, depth (val e) ≤ d) → result = .ok (es, rest)
  deep : (∃ e ∈ es, d < depth (val e)) → ∃ left, result = .error ⟨.tooDeep, left⟩

theorem limitedEntries_nil {val : α → Json} {rest : Bytes} :
    LimitedEntries d val [] rest (.ok ([], rest)) := by
  constructor
  · intro _
    rfl
  · rintro ⟨e, he, _⟩
    cases he

theorem thenMore_limited {val : α → Json} {entry : Json → α} {e : α} {es : List α}
    {more : Bytes → Except Stop (Parsed (List α))} {s rest : Bytes} (hends : EndsNumber s)
    (hentry : entry (val e) = e) (he : Limited item d (val e))
    (hes : LimitedEntries d val es rest (more s)) :
    LimitedEntries d val (e :: es) rest
      (thenMore entry (item (Utf8.encode (val e).chars ++ s)) more) := by
  constructor
  · intro hd
    obtain ⟨hde, hdes⟩ := List.forall_mem_cons.1 hd
    rw [he.back hde _ hends]
    simp only [thenMore, bind, Except.bind, hes.back hdes, pure, Except.pure, hentry]
  · intro hd
    by_cases hde : depth (val e) ≤ d
    · have hdes : ∃ f ∈ es, d < depth (val f) := by
        obtain ⟨f, hf, hdf⟩ := hd
        rcases List.mem_cons.1 hf with rfl | hf
        · exact absurd hde (Nat.not_le_of_lt hdf)
        · exact ⟨f, hf, hdf⟩
      obtain ⟨left, hleft⟩ := hes.deep hdes
      refine ⟨left, ?_⟩
      rw [he.back hde _ hends]
      simp only [thenMore, bind, Except.bind, hleft]
    · obtain ⟨left, hleft⟩ := he.deep (Nat.lt_of_not_le hde) _ hends
      refine ⟨left, ?_⟩
      rw [hleft]
      rfl

/-- A reader that takes one entry after another, each with a byte of fuel, up to the closing text. -/
theorem entries_limited (val : α → Json) (entry : α → Json → α) (text : List α → Bytes)
    (read : Bytes → Bytes → Except Stop (Parsed (List α)))
    (hends : ∀ es rest, EndsNumber (text es ++ rest)) (hentry : ∀ e, entry e (val e) = e)
    (hnil : ∀ x fuel rest, read (x :: fuel) (text [] ++ rest) = .ok ([], rest))
    (hcons : ∀ e es x fuel rest, FloatFree (val e) → read (x :: fuel) (text (e :: es) ++ rest) =
      thenMore (entry e) (item (Utf8.encode (val e).chars ++ (text es ++ rest))) (read fuel))
    (es : List α) (hf : ∀ e ∈ es, FloatFree (val e)) (h : ∀ e ∈ es, Limited item d (val e))
    (fuel rest : Bytes) (hn : es.length < fuel.length) :
    LimitedEntries d val es rest (read fuel (text es ++ rest)) := by
  -- the closing text takes a byte of fuel as well, so the bound is strict
  induction es generalizing fuel with
  | nil =>
    cases fuel with
    | nil => exact absurd hn (Nat.not_lt_zero _)
    | cons x fuel =>
      rw [hnil]
      exact limitedEntries_nil
  | cons e es ih =>
    cases fuel with
    | nil => exact absurd hn (Nat.not_lt_zero _)
    | cons x fuel =>
      obtain ⟨hfe, hfes⟩ := List.forall_mem_cons.1 hf
      obtain ⟨he, hes⟩ := List.forall_mem_cons.1 h
      rw [hcons e es x fuel rest hfe]
      exact thenMore_limited (hends es rest) (hentry e) he
        (ih hfes hes fuel (Nat.lt_of_succ_lt_succ hn))

/-- A container whose entries are read, and which adds one level around them. -/
theorem limited_container (make : List α → Json) {val : α → Json} {es : List α} {j : Json}
    {read : Bytes → Except Stop (Parsed (List α))} (hmake : make es = j)
    (hdepth : depth j ≤ d + 1 ↔ ∀ e ∈ es, depth (val e) ≤ d)
    (hread : ∀ rest, containerWith item (Utf8.encode j.chars ++ rest) =
      (read rest).map fun p => (make p.1, p.2))
    (hes : ∀ rest, LimitedEntries d val es rest (read rest)) :
    Limited (containerWith item) (d + 1) j := by
  constructor
  · intro hd rest _
    rw [hread, (hes rest).back (hdepth.1 hd), ← hmake]
    rfl
  · intro hd rest _
    have hdeep : ∃ e ∈ es, d < depth (val e) := by
      apply Classical.byContradiction
      intro hnone
      simp only [not_exists, not_and, Nat.not_lt] at hnone
      exact absurd (hdepth.2 hnone) (Nat.not_le_of_lt hd)
    obtain ⟨left, hleft⟩ := (hes rest).deep hdeep
    refine ⟨left, ?_⟩
    rw [hread, hleft]
    rfl

theorem items_closed (item : Bytes → Except Stop (Parsed Json)) (x : UInt8) (fuel : Bytes)
    (first : Bool) (rest : Bytes) :
    items item (x :: fuel) first (ascii ']' :: rest) = .ok ([], rest) := by
  rw [items, skipSpace_cons (by decide)]
  simp only [if_true]

theorem items_more_eq (fuel s : Bytes) :
    items.more item fuel s = thenMore id (item s) (items item fuel false) := by
  rw [items.more, thenMore]
  rfl

/-- Behind the opening bracket comes the first item. -/
theorem items_first {j : Json} (hf : FloatFree j) (x : UInt8) (fuel s : Bytes) :
    items item (x :: fuel) true (Utf8.encode j.chars ++ s) =
      thenMore id (item (Utf8.encode j.chars ++ s)) (items item fuel false) := by
  obtain ⟨b, r, hb, hspace, hclose⟩ := encode_chars hf
  rw [← items_more_eq, hb, List.cons_append, items, skipSpace_cons hspace]
  simp only [if_neg hclose, if_true]

/-- Behind an item comes a comma with the next one. -/
theorem items_next {j : Json} (hf : FloatFree j) (js : List Json) (x : UInt8) (fuel rest : Bytes) :
    items item (x :: fuel) false (Utf8.encode (itemsChars (j :: js)) ++ rest) =
      thenMore id (item (Utf8.encode j.chars ++ (Utf8.encode (itemsChars js) ++ rest)))
        (items item fuel false) := by
  obtain ⟨b, r, hb, hspace, hclose⟩ := encode_chars hf
  have hcomma : Utf8.encode (itemsChars (j :: js)) ++ rest =
      ascii ',' :: (b :: (r ++ (Utf8.encode (itemsChars js) ++ rest))) := by
    rw [itemsChars, Utf8.encode_cons, Utf8.encode_append, hb, List.append_assoc, List.append_assoc]
    rfl
  rw [← items_more_eq, hcomma, items, skipSpace_cons (by decide), hb]
  simp only [if_neg (show ascii ',' ≠ ascii ']' by decide), Bool.false_eq_true, if_false, if_true,
    skipSpace_cons hspace, if_neg hclose, List.cons_append]

theorem length_lt_itemsChars (js : List Json) :
    js.length < (Utf8.encode (itemsChars js)).length := by
  induction js with
  | nil => decide
  | cons j js ih =>
    have hcomma : (Utf8.encode (itemsChars (j :: js))).length =
        1 + ((Utf8.encode j.chars).length + (Utf8.encode (itemsChars js)).length) := by
      rw [itemsChars, Utf8.encode_cons, Utf8.encode_append, List.length_append, List.length_append]
      rfl
    rw [hcomma, List.length_cons]
    omega

def listText : List Json → Bytes → Bytes
  | [], rest => ascii ']' :: rest
  | j :: js, rest => Utf8.encode j.chars ++ (Utf8.encode (itemsChars js) ++ rest)

theorem encode_list (js : List Json) (rest : Bytes) :
    Utf8.encode (chars (.list js)) ++ rest = ascii '[' :: listText js rest := by
  cases js with
  | nil => rfl
  | cons j js =>
    rw [chars, Utf8.encode_cons, Utf8.encode_append, List.append_assoc, List.append_assoc]
    rfl

theorem items_limited {js : List Json} (hf : ∀ j ∈ js, FloatFree j)
    (h : ∀ j ∈ js, Limited item d j) (rest : Bytes) :
    LimitedEntries d id js rest
      (items item (ascii '[' :: listText js rest) true (listText js rest)) := by
  cases js with
  | nil =>
    rw [listText, items_closed]
    exact limitedEntries_nil
  | cons j js =>
    obtain ⟨hfj, hfjs⟩ := List.forall_mem_cons.1 hf
    obtain ⟨hj, hjs⟩ := List.forall_mem_cons.1 h
    have hfuel : js.length < (listText (j :: js) rest).length := by
      have := length_lt_itemsChars js
      simp only [listText, List.length_append]
      omega
    have hmore : LimitedEntries d id js rest
        (items item (listText (j :: js) rest) false (Utf8.encode (itemsChars js) ++ rest)) :=
      entries_limited id (fun _ => id) (fun js => Utf8.encode (itemsChars js))
        (fun fuel => items item fuel false) endsNumber_itemsChars (fun _ => rfl)
        (fun x fuel rest => items_closed item x fuel false rest)
        (fun _ js x fuel rest hf => items_next hf js x fuel rest) js hfjs hjs _ rest hfuel
    rw [listText, items_first hfj]
    exact thenMore_limited (endsNumber_itemsChars js rest) rfl hj hmore

theorem limited_list {js : List Json} (hf : ∀ j ∈ js, FloatFree j)
    (h : ∀ j ∈ js, Limited item d j) : Limited (containerWith item) (d + 1) (.list js) := by
  refine limited_container Json.list rfl ?_ ?_ (items_limited hf h)
  · rw [depth, Nat.succ_le_succ_iff, itemsDepth_le_iff]
    rfl
  · intro rest
    rw [encode_list]
    rfl

theorem members_closed (item : Bytes → Except Stop (Parsed Json)) (x : UInt8) (fuel : Bytes)
    (first : Bool) (rest : Bytes) :
    members item (x :: fuel) first (ascii '\x7d' :: rest) = .ok ([], rest) := by
  rw [members, skipSpace_cons (by decide)]
  simp only [if_true]

def memberText (e : String × Json) (s : Bytes) : Bytes :=
  Utf8.encode (e.1.toList.flatMap escapeChar) ++
    ascii '"' :: ascii ':' :: (Utf8.encode e.2.chars ++ s)

theorem encode_member (e : String × Json) (cs : List Char) (s : Bytes) :
    Utf8.encode (stringText e.1 ++ ':' :: (e.2.chars ++ cs)) ++ s =
      ascii '"' :: memberText e (Utf8.encode cs ++ s) := by
  simp only [memberText, Utf8.encode_append, Utf8.encode_cons, encode_stringText,
    List.cons_append, List.append_assoc, List.nil_append]
  rfl

/-- The key and the colon are read; what is left is the value with the further members. -/
theorem members_more_eq (e : String × Json) (fuel s : Bytes) :
    members.more item fuel (memberText e s) =
      thenMore (e.1, ·) (item (Utf8.encode e.2.chars ++ s)) (members item fuel false) := by
  have hcolon : colon (ascii ':' :: (Utf8.encode e.2.chars ++ s)) =
      .ok (Utf8.encode e.2.chars ++ s) := by
    rw [colon, skipSpace_cons (by decide)]
    simp only [if_true]
  rw [members.more, memberText, string_flatMap]
  simp only [bind, Except.bind, hcolon, thenMore]

/-- Behind the opening brace comes the first member. -/
theorem members_first (e : String × Json) (x : UInt8) (fuel s : Bytes) :
    members item (x :: fuel) true (ascii '"' :: memberText e s) =
      thenMore (e.1, ·) (item (Utf8.encode e.2.chars ++ s)) (members item fuel false) := by
  rw [← members_more_eq, members, skipSpace_cons (by decide)]
  simp only [if_neg (show ascii '"' ≠ ascii '\x7d' by decide), if_true]

theorem encode_membersChars (e : String × Json) (ms : List (String × Json)) (rest : Bytes) :
    Utf8.encode (membersChars (e :: ms)) ++ rest =
      ascii ',' :: ascii '"' :: memberText e (Utf8.encode (membersChars ms) ++ rest) := by
  rw [← encode_member, membersChars, Utf8.encode_cons]
  rfl

/-- Behind a member comes a comma with the next one. -/
theorem members_next (e : String × Json) (ms : List (String × Json)) (x : UInt8)
    (fuel rest : Bytes) :
    members item (x :: fuel) false (Utf8.encode (membersChars (e :: ms)) ++ rest) =
      thenMore (e.1, ·) (item (Utf8.encode e.2.chars ++ (Utf8.encode (membersChars ms) ++ rest)))
        (members item fuel false) := by
  rw [← members_more_eq, encode_membersChars, members, skipSpace_cons (by decide)]
  simp only [if_neg (show ascii ',' ≠ ascii '\x7d' by decide), Bool.false_eq_true, if_false,
    if_true, skipSpace_cons (show isSpace (ascii '"') = false by decide)]

theorem length_lt_membersChars (ms : List (String × Json)) :
    ms.length < (Utf8.encode (membersChars ms)).length := by
  induction ms with
  | nil => decide
  | cons e ms ih =>
    have htext := encode_membersChars e ms []
    rw [List.append_nil, List.append_nil] at htext
    rw [htext]
    simp only [memberText, List.length_cons, List.length_append]
    omega

def objectText : List (String × Json) → Bytes → Bytes
  | [], rest => ascii '\x7d' :: rest
  | e :: ms, rest => ascii '"' :: memberText e (Utf8.encode (membersChars ms) ++ rest)

theorem encode_object (ms : List (String × Json)) (rest : Bytes) :
    Utf8.encode (chars (.object ms)) ++ rest = ascii '\x7b' :: objectText ms rest := by
  cases ms with
  | nil => rfl
  | cons e ms =>
    rw [objectText, ← encode_member, chars, Utf8.encode_cons]
    rfl

theorem members_limited {ms : List (String × Json)} (hf : ∀ e ∈ ms, FloatFree e.2)
    (h : ∀ e ∈ ms, Limited item d e.2) (rest : Bytes) :
    LimitedEntries d Prod.snd ms rest
      (members item (ascii '\x7b' :: objectText ms rest) true (objectText ms rest)) := by
  cases ms with
  | nil =>
    rw [objectText, members_closed]
    exact limitedEntries_nil
  | cons e ms =>
    obtain ⟨_, hfms⟩ := List.forall_mem_cons.1 hf
    obtain ⟨he, hms⟩ := List.forall_mem_cons.1 h
    have hfuel : ms.length < (objectText (e :: ms) rest).length := by
      have := length_lt_membersChars ms
      simp only [objectText, memberText, List.length_cons, List.length_append]
      omega
    have hmore : LimitedEntries d Prod.snd ms rest
        (members item (objectText (e :: ms) rest) false (Utf8.encode (membersChars ms) ++ rest)) :=
      entries_limited Prod.snd (fun e => (e.1, ·)) (fun ms => Utf8.encode (membersChars ms))
        (fun fuel => members item fuel false) endsNumber_membersChars (fun _ => rfl)
        (fun x fuel rest => members_closed item x fuel false rest)
        (fun e ms x fuel rest _ => members_next e ms x fuel rest) ms hfms hms _ rest hfuel
    rw [objectText, members_first]
    exact thenMore_limited (endsNumber_membersChars ms rest) rfl he hmore

theorem limited_object {ms : List (String × Json)} (hms : Ascending ms)
    (hf : ∀ e ∈ ms, FloatFree e.2) (h : ∀ e ∈ ms, Limited item d e.2) :
    Limited (containerWith item) (d + 1) (.object ms) := by
  have hsorted : Json.ofMembers ms = .object ms := congrArg Json.object (sortEntries_eq_self hms)
  refine limited_container Json.ofMembers hsorted ?_ ?_ (members_limited hf h)
  · rw [depth, Nat.succ_le_succ_iff, membersDepth_le_iff]
  · intro rest
    rw [encode_object]
    rfl

/-- A value is read if it nests as deep as allowed at most, and refused as too deep otherwise. -/
theorem limited_value (d : Nat) {j : Json} (hf : FloatFree j) (hc : Canonical j) :
    Limited (value d) d j := by
  induction d generalizing j with
  | zero =>
    constructor
    · intro hd
      exact readsBack_scalar _ (Nat.le_zero.1 hd) hf hc
    · intro hd rest _
      exact ⟨_, valueWith_container _ hd rest⟩
  | succ d ih =>
    by_cases hd : depth j = 0
    · constructor
      · intro _
        exact readsBack_scalar _ hd hf hc
      · intro hdeep
        omega
    · have hcontainer : Limited (containerWith (value d)) (d + 1) j := by
        cases j with
        | null | bool | int | float | text => simp [depth] at hd
        | list js =>
          have hfs := itemsFloatFree_iff.1 hf
          exact limited_list hfs fun i hi => ih (hfs i hi) (itemsCanonical_iff.1 hc i hi)
        | object ms =>
          have hfs := membersFloatFree_iff.1 hf
          exact limited_object hc.1 hfs fun e he =>
            ih (hfs e he) (membersCanonical_iff.1 hc.2 e he)
      have hvalue := valueWith_container (containerWith (value d)) (Nat.pos_of_ne_zero hd)
      constructor
      · intro hle rest hends
        rw [value, hvalue]
        exact hcontainer.back hle rest hends
      · intro hlt rest hends
        rw [value, hvalue]
        exact hcontainer.deep hlt rest hends

theorem endsNumber_of_isSpace {blanks : Bytes} (h : ∀ b ∈ blanks, isSpace b = true) :
    EndsNumber blanks := by
  cases blanks with
  | nil => trivial
  | cons b rest =>
    have hb := h b List.mem_cons_self
    simp only [isSpace, Bool.or_eq_true, beq_iff_eq, or_assoc] at hb
    rcases hb with rfl | rfl | rfl | rfl <;> exact ⟨rfl, by decide, by decide, by decide⟩

theorem skipSpace_eq_nil {blanks : Bytes} (h : ∀ b ∈ blanks, isSpace b = true) :
    skipSpace blanks = [] := by
  have hdrop : (blanks ++ []).dropWhile isSpace = [] := List.dropWhile_append_of_pos h
  rwa [List.append_nil] at hdrop

/-- A printed value reads back if it nests at most as deep as the reader allows, also with blanks
behind it. -/
theorem readWithin_chars_append {d : Nat} {j : Json} (hf : FloatFree j) (hc : Canonical j)
    (hd : depth j ≤ d) {blanks : Bytes} (hblanks : ∀ b ∈ blanks, isSpace b = true) :
    readWithin d (Utf8.encode j.chars ++ blanks) = .ok j := by
  have hread := (limited_value d hf hc).back hd blanks (endsNumber_of_isSpace hblanks)
  rw [readWithin, wholeText, hread]
  simp only [bind, Except.bind, skipSpace_eq_nil hblanks]
  rfl

/-- A printed value that nests deeper is refused for its depth. -/
theorem readWithin_chars_append_of_lt {d : Nat} {j : Json} (hf : FloatFree j) (hc : Canonical j)
    (hd : d < depth j) {blanks : Bytes} (hblanks : ∀ b ∈ blanks, isSpace b = true) :
    ∃ e, readWithin d (Utf8.encode j.chars ++ blanks) = .error e ∧ e.cause = .tooDeep := by
  obtain ⟨left, hleft⟩ :=
    (limited_value d hf hc).deep hd blanks (endsNumber_of_isSpace hblanks)
  rw [readWithin, wholeText, hleft]
  exact ⟨_, rfl, rfl⟩

theorem readWithin_chars {d : Nat} {j : Json} (hf : FloatFree j) (hc : Canonical j)
    (hd : depth j ≤ d) : readWithin d (Utf8.encode j.chars) = .ok j := by
  have hread : readWithin d (Utf8.encode j.chars ++ []) = .ok j :=
    readWithin_chars_append hf hc hd fun _ hb => nomatch hb
  rwa [List.append_nil] at hread

theorem readWithin_chars_of_lt {d : Nat} {j : Json} (hf : FloatFree j) (hc : Canonical j)
    (hd : d < depth j) :
    ∃ e, readWithin d (Utf8.encode j.chars) = .error e ∧ e.cause = .tooDeep := by
  have hread : ∃ e, readWithin d (Utf8.encode j.chars ++ []) = .error e ∧ e.cause = .tooDeep :=
    readWithin_chars_append_of_lt hf hc hd fun _ hb => nomatch hb
  rwa [List.append_nil] at hread

/-- Values with the same text are equal. -/
theorem eq_of_chars_eq {j k : Json} (hj : FloatFree j ∧ Canonical j)
    (hk : FloatFree k ∧ Canonical k) (h : j.chars = k.chars) : j = k := by
  have hread := readWithin_chars hj.1 hj.2 (Nat.le_max_left (depth j) (depth k))
  rw [h, readWithin_chars hk.1 hk.2 (Nat.le_max_right (depth j) (depth k))] at hread
  exact (Except.ok.inj hread).symm

end SiteAtlas.Json
