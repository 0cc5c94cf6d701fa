import SiteAtlas.Proofs.Json.Locality
import SiteAtlas.Proofs.Json.RoundTrip

/-!
# Texts of containers

A reader of entries takes the text of the entries up to the closing bracket, and nothing else: blanks,
texts that the reader of one entry uses, and commas between them. Lists and objects are read so, and
by induction on the depth a value of either kind is decided by the bytes that are used for it.
-/
namespace SiteAtlas.Json

open Utf8 (Bytes)

def Blank (s : Bytes) : Prop := ∀ b ∈ s, isSpace b = true

theorem Blank.append {s t : Bytes} (hs : Blank s) (ht : Blank t) : Blank (s ++ t) := by
  intro b hb
  exact (List.mem_append.1 hb).elim (hs b) (ht b)

theorem skipSpace_append {blanks : Bytes} (h : Blank blanks) (s : Bytes) :
    skipSpace (blanks ++ s) = skipSpace s :=
  List.dropWhile_append_of_pos h

/-- A text is what is left of it behind blanks. -/
theorem exists_skipSpace (s : Bytes) : ∃ blanks, Blank blanks ∧ s = blanks ++ skipSpace s :=
  ⟨s.takeWhile isSpace, fun _ => List.mem_takeWhile_imp, List.takeWhile_append_dropWhile.symm⟩

theorem not_isSpace_of_skipSpace {s r : Bytes} {b : UInt8} (h : skipSpace s = b :: r) :
    isSpace b = false := by
  have hhead := List.head?_dropWhile_not isSpace s
  rw [← skipSpace, h] at hhead
  simpa using hhead

/-- What comes first behind blanks, wherever it stands. -/
theorem skipSpace_eq_cons {s r : Bytes} {b : UInt8} :
    skipSpace s = b :: r ↔
      isSpace b = false ∧ ∃ blanks, Blank blanks ∧ s = blanks ++ b :: r := by
  constructor
  · intro h
    obtain ⟨blanks, hblanks, hs⟩ := exists_skipSpace s
    rw [h] at hs
    exact ⟨not_isSpace_of_skipSpace h, blanks, hblanks, hs⟩
  · rintro ⟨hb, blanks, hblanks, rfl⟩
    rw [skipSpace_append hblanks]
    exact List.dropWhile_cons_of_neg (by simp [hb])

theorem word_eq_ok {ws s rest : Bytes} : word ws s = .ok rest ↔ s = ws ++ rest := by
  induction ws generalizing s with
  | nil => simp [word, eq_comm]
  | cons w ws ih =>
    cases s with
    | nil => simp [word, stopAt]
    | cons b s =>
      by_cases hb : b = w
      · simp [word, hb, ih]
      · simp [word, hb, stopAt]

theorem valueWith_blanks (container : Bytes → Except Stop (Parsed Json)) {blanks : Bytes}
    (h : Blank blanks) (s : Bytes) : valueWith container (blanks ++ s) = valueWith container s := by
  rw [valueWith, valueWith, skipSpace_append h]

/-- A value is local if containers are. -/
theorem local_valueWith {container : Bytes → Except Stop (Parsed Json)}
    (hlocal : Local EndsNumber container) (hnil : ∀ p, container [] ≠ .ok p) :
    Local EndsNumber (valueWith container) := by
  intro s j rest h
  cases hs : skipSpace s with
  | nil =>
    simp only [valueWith, hs] at h
    cases h
  | cons b r =>
    obtain ⟨hb, blanks, hblanks, rfl⟩ := skipSpace_eq_cons.1 hs
    suffices hused : ∃ used, r = used ++ rest ∧
        ∀ rest, EndsNumber rest → valueWith container (b :: (used ++ rest)) = .ok (j, rest) by
      obtain ⟨used, rfl, hused⟩ := hused
      refine ⟨blanks ++ b :: used, by simp, fun rest hrest => ?_⟩
      rw [List.append_assoc, valueWith_blanks container hblanks]
      exact hused rest hrest
    have known {ws : Bytes} {k : Json} (hword : (word ws r).map (k, ·) = .ok (j, rest)) :
        r = ws ++ rest ∧ ∀ rest, (word ws (ws ++ rest)).map (k, ·) = .ok (j, rest) := by
      obtain ⟨_, hr, hp⟩ := map_eq_ok.1 hword
      cases hp
      exact ⟨word_eq_ok.1 hr, fun rest => map_eq_ok.2 ⟨rest, word_eq_ok.2 rfl, rfl⟩⟩
    simp only [valueWith, hs] at h
    simp only [valueWith, skipSpace_cons hb]
    split_ifs at h ⊢ with hn ht hf hquote hnumber hcontainer
    · obtain ⟨hr, hword⟩ := known h
      exact ⟨_, hr, fun rest _ => hword rest⟩
    · obtain ⟨hr, hword⟩ := known h
      exact ⟨_, hr, fun rest _ => hword rest⟩
    · obtain ⟨hr, hword⟩ := known h
      exact ⟨_, hr, fun rest _ => hword rest⟩
    · obtain ⟨⟨t, _⟩, ht, hp⟩ := map_eq_ok.1 h
      cases hp
      obtain ⟨used, rfl, hused⟩ := local_string _ _ _ ht
      exact ⟨used, rfl, fun rest _ => map_eq_ok.2 ⟨_, hused rest trivial, rfl⟩⟩
    · exact local_number.cons (fun _ h => by cases h) trivial h
    · exact hlocal.cons hnil trivial h
    · cases h

theorem depth_of_map_float {x? : Option Float} {j : Json} (h : x?.map .float = some j) :
    depth j = 0 := by
  obtain ⟨x, -, rfl⟩ := Option.map_eq_some_iff.1 h
  rfl

theorem depth_wholeNumber? {negative : Bool} {whole : Bytes} {j : Json}
    (h : wholeNumber? negative whole = some j) : depth j = 0 := by
  simp only [wholeNumber?] at h
  split_ifs at h
  · cases h
    rfl
  · exact depth_of_map_float h
  · cases h
    rfl
  · exact depth_of_map_float h

theorem depth_afterDigits {negative : Bool} {whole s rest : Bytes} {j : Json}
    (h : afterDigits negative whole s = .ok (j, rest)) : depth j = 0 := by
  unfold afterDigits afterDigits.plainNumber at h
  grind [stopAt, stopPast, depth, float_of_exponentPart, float_of_decimalNumber,
    depth_wholeNumber?]

theorem depth_number {s rest : Bytes} {j : Json} (h : number s = .ok (j, rest)) : depth j = 0 := by
  unfold number unsigned at h
  grind [stopAt, stopPast, depth_afterDigits]

theorem valueWith_eq_object {container : Bytes → Except Stop (Parsed Json)} {s rest : Bytes}
    {ms : List (String × Json)} :
    valueWith container s = .ok (.object ms, rest) ↔
      ∃ blanks b r, Blank blanks ∧ (b = ascii '[' ∨ b = ascii '\x7b') ∧ s = blanks ++ b :: r ∧
        container (b :: r) = .ok (.object ms, rest) := by
  constructor
  · intro h
    cases hs : skipSpace s with
    | nil =>
      simp only [valueWith, hs] at h
      cases h
    | cons b r =>
      obtain ⟨-, blanks, hblanks, rfl⟩ := skipSpace_eq_cons.1 hs
      simp only [valueWith, hs] at h
      split_ifs at h with hn ht hf hquote hnumber hcontainer
      · simp [map_eq_ok] at h
      · simp [map_eq_ok] at h
      · simp [map_eq_ok] at h
      · simp [map_eq_ok] at h
      · exact absurd (depth_number h) (by simp [depth])
      · exact ⟨blanks, b, r, hblanks, by simpa using hcontainer, rfl, h⟩
      · cases h
  · rintro ⟨blanks, b, r, hblanks, rfl | rfl, rfl, h⟩
    · rw [valueWith_blanks container hblanks]
      exact h
    · rw [valueWith_blanks container hblanks]
      exact h

section Entries

variable {α : Type} {close : UInt8} {opens : UInt8 → Prop}
  {entry : Bytes → Except Stop (Parsed α)}
  {read : Bytes → Bool → Bytes → Except Stop (Parsed (List α))}

inductive EntriesText (text : Bytes → α → Prop) : Bytes → List α → Prop where
  | one {s : Bytes} {e : α} (h : text s e) : EntriesText text s [e]
  | more {s t : Bytes} {e : α} {es : List α} (h : text s e) (ht : EntriesText text t es) :
    EntriesText text (s ++ ascii ',' :: t) (e :: es)

/-- What stands between the brackets of a container: blanks only, or its entries. -/
def BodyText (text : Bytes → α → Prop) (s : Bytes) (es : List α) : Prop :=
  (Blank s ∧ es = []) ∨ EntriesText text s es

/-- What stands behind an entry up to the closing bracket: blanks only, or the further entries. -/
def MoreText (text : Bytes → α → Prop) (s : Bytes) (es : List α) : Prop :=
  ∃ blanks, Blank blanks ∧
    ((s = blanks ∧ es = []) ∨ ∃ t, s = blanks ++ ascii ',' :: t ∧ EntriesText text t es)

/-- What stands in front of an entry: blanks, and in front of a further entry also a comma. -/
def Lead : (first : Bool) → Bytes → Prop
  | true, s => Blank s
  | false, s => ∃ before after, Blank before ∧ Blank after ∧ s = before ++ ascii ',' :: after

theorem Lead.append {first : Bool} {s blanks : Bytes} (h : Lead first s) (hblanks : Blank blanks) :
    Lead first (s ++ blanks) := by
  cases first with
  | true => exact Blank.append h hblanks
  | false =>
    obtain ⟨before, after, hbefore, hafter, rfl⟩ := h
    exact ⟨before, after ++ blanks, hbefore, hafter.append hblanks, by simp⟩

/-- A text that a reader uses for an entry, with blanks around it. -/
def EntryText (opens : UInt8 → Prop) (entry : Bytes → Except Stop (Parsed α)) (s : Bytes) (e : α) :
    Prop :=
  ∃ before b used after, Blank before ∧ opens b ∧ Blank after ∧
    s = before ++ b :: (used ++ after) ∧ Reads EndsNumber entry (b :: used) e

/-- A reader of entries up to the closing bracket, with a byte of fuel for each step. -/
structure Series (close : UInt8) (opens : UInt8 → Prop) (entry : Bytes → Except Stop (Parsed α))
    (read : Bytes → Bool → Bytes → Except Stop (Parsed (List α))) : Prop where
  empty : ∀ first s p, read [] first s ≠ .ok p
  step : ∀ x fuel first s es rest, read (x :: fuel) first s = .ok (es, rest) ↔
    (∃ blanks, Blank blanks ∧ s = blanks ++ close :: rest ∧ es = []) ∨
      ∃ lead b r e es' s', Lead first lead ∧ opens b ∧ s = lead ++ b :: r ∧
        entry (b :: r) = .ok (e, s') ∧ read fuel false s' = .ok (es', rest) ∧ es = e :: es'

theorem EntriesText.exists_of_mem {text : Bytes → α → Prop} {s : Bytes} {es : List α}
    (h : EntriesText text s es) {e : α} (he : e ∈ es) : ∃ t, text t e := by
  induction h with
  | one h =>
    obtain rfl := List.mem_singleton.1 he
    exact ⟨_, h⟩
  | more h _ ih =>
    rcases List.mem_cons.1 he with rfl | he
    · exact ⟨_, h⟩
    · exact ih he

theorem EntriesText.length_le {s : Bytes} {es : List α}
    (h : EntriesText (EntryText opens entry) s es) : es.length ≤ s.length := by
  induction h with
  | one h =>
    obtain ⟨before, b, used, after, -, -, -, rfl, -⟩ := h
    simp only [List.length_append, List.length_cons, List.length_nil]
    omega
  | more h _ ih =>
    simp only [List.length_append, List.length_cons]
    omega

theorem endsNumber_append {blanks s : Bytes} (h : Blank blanks) (hs : EndsNumber s) :
    EndsNumber (blanks ++ s) := by
  cases blanks with
  | nil => exact hs
  | cons b blanks =>
    have hends : EndsNumber (b :: blanks) := endsNumber_of_isSpace h
    exact hends

/-- An entry in front of what stands behind it. -/
theorem MoreText.cons {lead s : Bytes} {b : UInt8} {used : Bytes} {e : α} {es : List α}
    (hlead : Blank lead) (hb : opens b) (he : Reads EndsNumber entry (b :: used) e)
    (h : MoreText (EntryText opens entry) s es) :
    EntriesText (EntryText opens entry) (lead ++ b :: (used ++ s)) (e :: es) := by
  obtain ⟨blanks, hblanks, ⟨rfl, rfl⟩ | ⟨t, rfl, ht⟩⟩ := h
  · exact .one ⟨lead, b, used, s, hlead, hb, hblanks, rfl, he⟩
  · have hmore := EntriesText.more ⟨lead, b, used, blanks, hlead, hb, hblanks, rfl, he⟩ ht
    simpa using hmore

/-- What is read as entries is their text up to the closing bracket. -/
theorem Series.exists_text (h : Series close opens entry read) (hlocal : Local EndsNumber entry)
    (hnil : ∀ p, entry [] ≠ .ok p) {fuel s rest : Bytes} {first : Bool} {es : List α}
    (hread : read fuel first s = .ok (es, rest)) :
    ∃ t, s = t ++ close :: rest ∧
      if first then BodyText (EntryText opens entry) t es
      else MoreText (EntryText opens entry) t es := by
  induction fuel generalizing first s es with
  | nil => exact absurd hread (h.empty _ _ _)
  | cons x fuel ih =>
    obtain ⟨blanks, hblanks, rfl, rfl⟩ | ⟨lead, b, r, e, es', s', hlead, hb, rfl, he, hes, rfl⟩ :=
      (h.step ..).1 hread
    · refine ⟨blanks, rfl, ?_⟩
      cases first with
      | true => exact .inl ⟨hblanks, rfl⟩
      | false => exact ⟨blanks, hblanks, .inl ⟨rfl, rfl⟩⟩
    · obtain ⟨used, rfl, hused⟩ := hlocal.cons hnil trivial he
      obtain ⟨t, rfl, ht⟩ := ih hes
      refine ⟨lead ++ b :: (used ++ t), by simp, ?_⟩
      cases first with
      | true => exact .inr (MoreText.cons hlead hb hused ht)
      | false =>
        obtain ⟨before, after, hbefore, hafter, rfl⟩ := hlead
        exact ⟨before, hbefore, .inr ⟨after ++ b :: (used ++ t), by simp,
          MoreText.cons hafter hb hused ht⟩⟩

/-- The texts of entries are read as these entries, with enough fuel for them. -/
theorem Series.read_entries (h : Series close opens entry read)
    (hclose : ∀ rest, EndsNumber (close :: rest)) {t : Bytes} {es : List α}
    (ht : EntriesText (EntryText opens entry) t es) (first : Bool) {lead : Bytes}
    (hlead : Lead first lead) {fuel : Bytes} (hfuel : es.length < fuel.length) (rest : Bytes) :
    read fuel first (lead ++ (t ++ close :: rest)) = .ok (es, rest) := by
  induction ht generalizing first lead fuel with
  | one he =>
    obtain ⟨before, b, used, after, hbefore, hb, hafter, rfl, he⟩ := he
    obtain _ | ⟨x, _ | ⟨y, fuel⟩⟩ := fuel
    · simp at hfuel
    · simp at hfuel
    · have hlast : read (y :: fuel) false (after ++ close :: rest) = .ok ([], rest) :=
        (h.step ..).2 (.inl ⟨after, hafter, rfl, rfl⟩)
      exact (h.step ..).2 (.inr ⟨lead ++ before, b, used ++ (after ++ close :: rest), _, [], _,
        hlead.append hbefore, hb, by simp, he _ (endsNumber_append hafter (hclose rest)), hlast,
        rfl⟩)
  | @more s t e es he ht ih =>
    obtain ⟨before, b, used, after, hbefore, hb, hafter, rfl, he⟩ := he
    cases fuel with
    | nil => simp at hfuel
    | cons x fuel =>
      have hcomma : Lead false (after ++ [ascii ',']) := ⟨after, [], hafter, nofun, rfl⟩
      have hmore := ih false hcomma (Nat.lt_of_succ_lt_succ hfuel)
      rw [List.append_assoc, List.singleton_append] at hmore
      have hends : EndsNumber (after ++ ascii ',' :: (t ++ close :: rest)) :=
        endsNumber_append hafter ⟨by decide, by decide, by decide, by decide⟩
      exact (h.step ..).2 (.inr ⟨lead ++ before, b, _, e, es, _, hlead.append hbefore, hb,
        by simp, he _ hends, hmore, rfl⟩)

theorem Series.read_body (h : Series close opens entry read)
    (hclose : ∀ rest, EndsNumber (close :: rest)) {t : Bytes} {es : List α}
    (ht : BodyText (EntryText opens entry) t es) (x : UInt8) (rest : Bytes) :
    read (x :: (t ++ close :: rest)) true (t ++ close :: rest) = .ok (es, rest) := by
  obtain ⟨hblank, rfl⟩ | ht := ht
  · exact (h.step ..).2 (.inl ⟨t, hblank, rfl, rfl⟩)
  · refine h.read_entries hclose ht true (show Lead true [] from nofun) ?_ rest
    have := ht.length_le
    simp only [List.length_cons, List.length_append]
    omega

/-- Behind the opening bracket, the text of the entries is read, and nothing else. -/
theorem Series.read_eq_ok (h : Series close opens entry read) (hlocal : Local EndsNumber entry)
    (hnil : ∀ p, entry [] ≠ .ok p) (hclose : ∀ rest, EndsNumber (close :: rest)) {x : UInt8}
    {s rest : Bytes} {es : List α} :
    read (x :: s) true s = .ok (es, rest) ↔
      ∃ t, s = t ++ close :: rest ∧ BodyText (EntryText opens entry) t es := by
  constructor
  · exact h.exists_text hlocal hnil
  · rintro ⟨t, rfl, ht⟩
    exact h.read_body hclose ht x rest

end Entries

variable {item : Bytes → Except Stop (Parsed Json)}

theorem items_more_eq_ok {fuel s rest : Bytes} {js : List Json} :
    items.more item fuel s = .ok (js, rest) ↔
      ∃ j js' s', item s = .ok (j, s') ∧ items item fuel false s' = .ok (js', rest) ∧
        js = j :: js' := by
  unfold items.more
  simp only [bind_eq_ok, Prod.exists, pure, Except.pure, Except.ok.injEq, Prod.mk.injEq]
  constructor
  · rintro ⟨j, s', hj, js', _, hjs, rfl, rfl⟩
    exact ⟨j, js', s', hj, hjs, rfl⟩
  · rintro ⟨j, js', s', hj, hjs, rfl⟩
    exact ⟨j, s', hj, js', rest, hjs, rfl, rfl⟩

/-- What an item may begin with: behind the blanks, anything but the closing bracket. -/
def OpensItem (b : UInt8) : Prop := isSpace b = false ∧ b ≠ ascii ']'

/-- Items are read up to the closing bracket; otherwise there is one more in front of the others. -/
theorem series_items (item : Bytes → Except Stop (Parsed Json)) :
    Series (ascii ']') OpensItem item (items item) := by
  refine ⟨fun _ _ _ h => ?_, fun x fuel first s js rest => ⟨fun h => ?_, ?_⟩⟩
  · simp [items, stopAt] at h
  · cases hs : skipSpace s with
    | nil =>
      simp only [items, hs] at h
      cases h
    | cons b r =>
      obtain ⟨hb, blanks, hblanks, rfl⟩ := skipSpace_eq_cons.1 hs
      simp only [items, hs] at h
      split_ifs at h with hclose hfirst hcomma
      · cases h
        exact .inl ⟨blanks, hblanks, by rw [hclose], rfl⟩
      · subst hfirst
        obtain ⟨j, js', s', hj, hjs, rfl⟩ := items_more_eq_ok.1 h
        exact .inr ⟨blanks, b, r, j, js', s', hblanks, ⟨hb, hclose⟩, rfl, hj, hjs, rfl⟩
      · obtain rfl : first = false := by simpa using hfirst
        cases hr : skipSpace r with
        | nil =>
          simp only [hr] at h
          cases h
        | cons c r' =>
          obtain ⟨hc, after, hafter, rfl⟩ := skipSpace_eq_cons.1 hr
          simp only [hr] at h
          split_ifs at h with htrailing
          · cases h
          · obtain ⟨j, js', s', hj, hjs, rfl⟩ := items_more_eq_ok.1 h
            exact .inr ⟨blanks ++ ascii ',' :: after, c, r', j, js', s',
              ⟨blanks, after, hblanks, hafter, rfl⟩, ⟨hc, htrailing⟩, by simp [hcomma], hj, hjs,
              rfl⟩
      · cases h
  · rintro (⟨blanks, hblanks, rfl, rfl⟩ |
      ⟨lead, b, r, j, js', s', hlead, ⟨hb, hclose⟩, rfl, hj, hjs, rfl⟩)
    · rw [items, skipSpace_append hblanks, skipSpace_cons (by decide)]
      simp only [if_true]
    · have hmore := items_more_eq_ok.2 ⟨j, js', s', hj, hjs, rfl⟩
      cases first with
      | true =>
        rw [items, skipSpace_append hlead, skipSpace_cons hb]
        simp only [if_neg hclose, if_true, hmore]
      | false =>
        obtain ⟨before, after, hbefore, hafter, rfl⟩ := hlead
        rw [List.append_assoc, List.cons_append, items, skipSpace_append hbefore,
          skipSpace_cons (by decide)]
        simp only [if_neg (show ascii ',' ≠ ascii ']' by decide), Bool.false_eq_true, if_false,
          if_true, skipSpace_append hafter, skipSpace_cons hb, if_neg hclose, hmore]

/-- The colon stands behind blanks. -/
theorem colon_eq_ok {s rest : Bytes} :
    colon s = .ok rest ↔ ∃ blanks, Blank blanks ∧ s = blanks ++ ascii ':' :: rest := by
  constructor
  · intro h
    cases hs : skipSpace s with
    | nil =>
      simp only [colon, hs] at h
      cases h
    | cons b r =>
      obtain ⟨-, blanks, hblanks, rfl⟩ := skipSpace_eq_cons.1 hs
      simp only [colon, hs] at h
      split_ifs at h with hb
      · cases h
        exact ⟨blanks, hblanks, by rw [hb]⟩
      · cases h
  · rintro ⟨blanks, hblanks, rfl⟩
    rw [colon, skipSpace_append hblanks, skipSpace_cons (by decide)]
    simp only [if_true]

def memberWith (item : Bytes → Except Stop (Parsed Json)) :
    Bytes → Except Stop (Parsed (String × Json))
  | [] => stopAt .endInObject []
  | _ :: s => do
    let (name, s) ← string s
    let s ← colon s
    let (j, s) ← item s
    return ((name, j), s)

theorem memberWith_eq_ok {s rest : Bytes} {e : String × Json} :
    memberWith item s = .ok (e, rest) ↔
      ∃ b name blanks t, string name = .ok (e.1, []) ∧ Blank blanks ∧
        s = b :: (name ++ (blanks ++ ascii ':' :: t)) ∧ item t = .ok (e.2, rest) := by
  cases s with
  | nil => simp [memberWith, stopAt]
  | cons b s =>
    simp only [memberWith, bind_eq_ok, Prod.exists, pure, Except.pure, Except.ok.injEq,
      Prod.mk.injEq]
    constructor
    · rintro ⟨k, s₁, hk, s₂, hcolon, j, s₃, hj, rfl, rfl⟩
      obtain ⟨name, rfl, hname⟩ := local_string _ _ _ hk
      obtain ⟨blanks, hblanks, rfl⟩ := colon_eq_ok.1 hcolon
      have halone := hname [] trivial
      rw [List.append_nil] at halone
      exact ⟨b, name, blanks, s₂, halone, hblanks, rfl, hj⟩
    · rintro ⟨_, name, blanks, t, hname, hblanks, hs, hj⟩
      obtain ⟨rfl, rfl⟩ := List.cons.inj hs
      refine ⟨e.1, _, ?_, t, colon_eq_ok.2 ⟨blanks, hblanks, rfl⟩, e.2, rest, hj, rfl, rfl⟩
      obtain ⟨used, hs, hused⟩ := local_string _ _ _ hname
      rw [List.append_nil] at hs
      rw [hs]
      exact hused _ trivial

theorem members_more_eq_ok {fuel s rest : Bytes} {ms : List (String × Json)} (b : UInt8) :
    members.more item fuel s = .ok (ms, rest) ↔
      ∃ e ms' s', memberWith item (b :: s) = .ok (e, s') ∧
        members item fuel false s' = .ok (ms', rest) ∧ ms = e :: ms' := by
  unfold members.more memberWith
  simp only [bind_eq_ok, Prod.exists, pure, Except.pure, Except.ok.injEq, Prod.mk.injEq]
  constructor
  · rintro ⟨k, s₁, hk, s₂, hcolon, j, s₃, hj, ms', _, hms, rfl, rfl⟩
    exact ⟨k, j, ms', s₃, ⟨k, s₁, hk, s₂, hcolon, j, s₃, hj, ⟨rfl, rfl⟩, rfl⟩, hms, rfl⟩
  · rintro ⟨_, _, ms', _, ⟨k, s₁, hk, s₂, hcolon, j, s₃, hj, ⟨rfl, rfl⟩, rfl⟩, hms, rfl⟩
    exact ⟨k, s₁, hk, s₂, hcolon, j, s₃, hj, ms', rest, hms, rfl, rfl⟩

/-- Members are read up to the closing brace; otherwise the next one begins with a quote. -/
theorem series_members (item : Bytes → Except Stop (Parsed Json)) :
    Series (ascii '\x7d') (· = ascii '"') (memberWith item) (members item) := by
  refine ⟨fun _ _ _ h => ?_, fun x fuel first s ms rest => ⟨fun h => ?_, ?_⟩⟩
  · simp [members, stopAt] at h
  · cases hs : skipSpace s with
    | nil =>
      simp only [members, hs] at h
      cases h
    | cons b r =>
      obtain ⟨-, blanks, hblanks, rfl⟩ := skipSpace_eq_cons.1 hs
      simp only [members, hs] at h
      split_ifs at h with hclose hfirst hquote hcomma
      · cases h
        exact .inl ⟨blanks, hblanks, by rw [hclose], rfl⟩
      · subst hfirst
        obtain ⟨e, ms', s', he, hms, rfl⟩ := (members_more_eq_ok b).1 h
        exact .inr ⟨blanks, b, r, e, ms', s', hblanks, hquote, rfl, he, hms, rfl⟩
      · cases h
      · obtain rfl : first = false := by simpa using hfirst
        cases hr : skipSpace r with
        | nil =>
          simp only [hr] at h
          cases h
        | cons c r' =>
          obtain ⟨-, after, hafter, rfl⟩ := skipSpace_eq_cons.1 hr
          simp only [hr] at h
          split_ifs at h with hquote htrailing
          · obtain ⟨e, ms', s', he, hms, rfl⟩ := (members_more_eq_ok c).1 h
            exact .inr ⟨blanks ++ ascii ',' :: after, c, r', e, ms', s',
              ⟨blanks, after, hblanks, hafter, rfl⟩, hquote, by simp [hcomma], he, hms, rfl⟩
          · cases h
          · cases h
      · cases h
  · rintro (⟨blanks, hblanks, rfl, rfl⟩ | ⟨lead, b, r, e, ms', s', hlead, rfl, rfl, he, hms, rfl⟩)
    · rw [members, skipSpace_append hblanks, skipSpace_cons (by decide)]
      simp only [if_true]
    · have hmore := (members_more_eq_ok _).2 ⟨e, ms', s', he, hms, rfl⟩
      cases first with
      | true =>
        rw [members, skipSpace_append hlead, skipSpace_cons (by decide)]
        simp only [if_neg (show ascii '"' ≠ ascii '\x7d' by decide), if_true, hmore]
      | false =>
        obtain ⟨before, after, hbefore, hafter, rfl⟩ := hlead
        rw [List.append_assoc, List.cons_append, members, skipSpace_append hbefore,
          skipSpace_cons (by decide)]
        simp only [if_neg (show ascii ',' ≠ ascii '\x7d' by decide), Bool.false_eq_true, if_false,
          if_true, skipSpace_append hafter,
          skipSpace_cons (show isSpace (ascii '"') = false by decide), hmore]

theorem local_memberWith (hlocal : Local EndsNumber item) :
    Local EndsNumber (memberWith item) := by
  intro s e rest h
  obtain ⟨b, name, blanks, t, hname, hblanks, rfl, hvalue⟩ := memberWith_eq_ok.1 h
  obtain ⟨used, rfl, hused⟩ := hlocal _ _ _ hvalue
  refine ⟨b :: (name ++ (blanks ++ ascii ':' :: used)), by simp, fun rest hrest => ?_⟩
  exact memberWith_eq_ok.2 ⟨b, name, blanks, used ++ rest, hname, hblanks, by simp,
    hused rest hrest⟩

theorem endsNumber_bracket (rest : Bytes) : EndsNumber (ascii ']' :: rest) :=
  ⟨by decide, by decide, by decide, by decide⟩

theorem endsNumber_brace (rest : Bytes) : EndsNumber (ascii '\x7d' :: rest) :=
  ⟨by decide, by decide, by decide, by decide⟩

variable (hlocal : Local EndsNumber item) (hnil : ∀ p, item [] ≠ .ok p)

include hlocal hnil in
theorem items_eq_ok {x : UInt8} {s rest : Bytes} {js : List Json} :
    items item (x :: s) true s = .ok (js, rest) ↔
      ∃ t, s = t ++ ascii ']' :: rest ∧ BodyText (EntryText OpensItem item) t js :=
  (series_items item).read_eq_ok hlocal hnil endsNumber_bracket

include hlocal in
theorem members_eq_ok {x : UInt8} {s rest : Bytes} {ms : List (String × Json)} :
    members item (x :: s) true s = .ok (ms, rest) ↔
      ∃ t, s = t ++ ascii '\x7d' :: rest ∧
        BodyText (EntryText (· = ascii '"') (memberWith item)) t ms :=
  (series_members item).read_eq_ok (local_memberWith hlocal) nofun endsNumber_brace

include hlocal hnil in
theorem local_containerWith : Local EndsNumber (containerWith item) := by
  intro s j rest h
  cases s with
  | nil => cases h
  | cons b s =>
    simp only [containerWith] at h
    split_ifs at h with hbracket
    · obtain ⟨⟨js, _⟩, hjs, hp⟩ := map_eq_ok.1 h
      cases hp
      obtain ⟨t, rfl, ht⟩ := (items_eq_ok hlocal hnil).1 hjs
      refine ⟨b :: (t ++ [ascii ']']), by simp, fun rest _ => ?_⟩
      rw [List.cons_append, List.append_assoc, List.singleton_append]
      simp only [containerWith, if_pos hbracket]
      exact map_eq_ok.2 ⟨(js, rest), (items_eq_ok hlocal hnil).2 ⟨t, rfl, ht⟩, rfl⟩
    · obtain ⟨⟨ms, _⟩, hms, hp⟩ := map_eq_ok.1 h
      cases hp
      obtain ⟨t, rfl, ht⟩ := (members_eq_ok hlocal).1 hms
      refine ⟨b :: (t ++ [ascii '\x7d']), by simp, fun rest _ => ?_⟩
      rw [List.cons_append, List.append_assoc, List.singleton_append]
      simp only [containerWith, if_neg hbracket]
      exact map_eq_ok.2 ⟨(ms, rest), (members_eq_ok hlocal).2 ⟨t, rfl, ht⟩, rfl⟩

theorem value_nil (d : Nat) (p : Parsed Json) : value d [] ≠ .ok p := by
  cases d <;> exact nofun

/-- The induction is on the depth: the values in a container nest one level less. -/
theorem local_value (d : Nat) : Local EndsNumber (value d) := by
  induction d with
  | zero => exact local_valueWith (fun _ _ _ h => by cases h) (fun _ h => by cases h)
  | succ d ih =>
    exact local_valueWith (local_containerWith ih (value_nil d)) (fun _ h => by cases h)

end SiteAtlas.Json
