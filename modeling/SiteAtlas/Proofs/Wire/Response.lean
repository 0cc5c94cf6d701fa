import SiteAtlas.Proofs.Codec.Acceptance
import SiteAtlas.Proofs.Codec.Fields
import SiteAtlas.Proofs.Json.ObjectText
import SiteAtlas.Proofs.Wire.Envelope

/-!
# Responses are decided by two members

What a line comes to is decided by the last result and the last error among the members of its
object, where a null is a value like any other. The other members, their number and order, and the
blanks do not count. A line that is no text of an object is refused.
-/
namespace SiteAtlas

open Json (ObjectText)

namespace ServiceError

/-- A text as it stands, which is blank where it is missing. -/
def TextOrBlank (text : String) (found : Option Json) : Prop :=
  found = some (.text text) ∨ found = none ∧ text = ""

/-- What a report is read from: its code and message by name, or in this order in a list. -/
def ReadFrom (e : ServiceError) : Json → Prop
  | .object ms => TextOrBlank e.code (entryAt? "code" ms) ∧
      TextOrBlank e.message (entryAt? "message" ms)
  | .list items => items.length ≤ 2 ∧ TextOrBlank e.code items[0]? ∧
      TextOrBlank e.message items[1]?
  | _ => False

theorem lawful : shape.Lawful where
  known := by simp [shape, Shape.field?, Field.Known]
  get_put := by simp [shape]
  get_put_of_ne := by simp [shape]
  ext := by
    rintro ⟨⟩ ⟨⟩ h
    simpa [shape] using h

theorem regular : shape.Regular := ⟨lawful, by decide⟩

def textField (name : String) (get : ServiceError → String)
    (put : String → ServiceError → ServiceError) : Field ServiceError :=
  ⟨name, [], .defaulted, Codec.text, get, put⟩

/-- Such a field is read from an object if it is a text there, or missing. -/
theorem gives_textField {name : String} {get : ServiceError → String}
    {put : String → ServiceError → ServiceError} {ms : List (String × Json)}
    (h : ms.Pairwise fun m n => m.1 ≠ n.1) {s : String} :
    (textField name get put).Gives ((textField name get put).valuesIn ms) False "" s ↔
      TextOrBlank s (entryAt? name ms) := by
  have hmember : (Json.object ms).member? (textField name get put).name = entryAt? name ms := rfl
  rw [Field.valuesIn_eq_toList rfl h, hmember]
  cases entryAt? name ms <;> simp [Field.Gives, TextOrBlank, textField, Codec.text_eq_ok]

theorem decode_object_eq_ok {ms : List (String × Json)}
    (h : ms.Pairwise fun m n => m.1 ≠ n.1) {e : ServiceError} :
    shape.decode (.object ms) = .ok e ↔ e.ReadFrom (.object ms) := by
  have hfields : shape.fields =
      [textField "code" ServiceError.code fun v r => { r with code := v },
        textField "message" ServiceError.message fun v r => { r with message := v }] := rfl
  rw [regular.decode_object_eq_ok, hfields, List.forall_mem_cons, List.forall_mem_singleton]
  exact and_congr (gives_textField h) (gives_textField h)

/-- What is absorbed from a list is its texts, in their order. -/
theorem decode_list_eq_ok {items : List Json} {e : ServiceError} :
    shape.decode (.list items) = .ok e ↔ e.ReadFrom (.list items) := by
  obtain ⟨code, message⟩ := e
  match items with
  | [] => simp [Shape.decode, shape, Shape.readItems, ReadFrom, TextOrBlank, eq_comm]
  | [_] | [_, _] | _ :: _ :: _ :: _ =>
    simp [Shape.decode, shape, Shape.readItems, ReadFrom, TextOrBlank, Field.absorb, bind_eq_ok,
      map_eq_ok, Codec.text_eq_ok]

/-- A report is read from an object whose names differ, or from a list. -/
theorem decode_eq_ok {j : Json} (h : ∀ ms, j = .object ms → ms.Pairwise fun m n => m.1 ≠ n.1)
    {e : ServiceError} : shape.decode j = .ok e ↔ e.ReadFrom j := by
  cases j with
  | object ms => exact decode_object_eq_ok (h ms rfl)
  | list items => exact decode_list_eq_ok
  | null | bool | int | float | text => simp [Shape.decode, ReadFrom]

end ServiceError

/-- The value that counts for a name among the members of a text: the last one. -/
def Json.lastValue? (name : String) (ns : List (String × Json)) : Option Json :=
  entryAt? name ns.reverse

namespace Response

open Json (lastValue?)

/-- The first members of each name in the reversed text are the last ones of the text. -/
theorem ofLine_of_objectText {text : Utf8.Bytes} {ns : List (String × Json)}
    (h : ObjectText 126 text ns) : ofLine text = ofMembers ns.reverse := by
  have hread : Json.read text = .ok (.object (sortEntries ns)) :=
    Json.readWithin_eq_object.2 ⟨ns, h, rfl⟩
  simp only [ofLine, hread, ofMembers, entryAt?_sortEntries]

/-- An error alone is a response if it is read as a report, and refused otherwise. -/
theorem ofMembers_error {ms : List (String × Json)} {report : Json}
    (hresult : entryAt? "result" ms = none) (herror : entryAt? "error" ms = some report)
    (h : ∀ parts, report = .object parts → parts.Pairwise fun m n => m.1 ≠ n.1) :
    (∀ e, ofMembers ms = .ok (.error e) ↔ e.ReadFrom report) ∧
      ((∀ e, ¬ServiceError.ReadFrom e report) →
        ∃ fault, ofMembers ms = .error (.badError fault)) := by
  simp only [ofMembers, hresult, herror, ← ServiceError.decode_eq_ok h]
  cases ServiceError.shape.decode report with
  | ok e => simp [Except.mapError, Except.map]
  | error fault => simp [Except.mapError, Except.map]

/-- A report that is read has no name twice, since of equal names only the last one is kept. -/
theorem pairwise_ne_of_objectText {text : Utf8.Bytes} {ns ms : List (String × Json)}
    (h : ObjectText 126 text ns) {name : String} (hlast : lastValue? name ns = some (.object ms)) :
    ms.Pairwise fun m n => m.1 ≠ n.1 := by
  rw [lastValue?, ← entryAt?_sortEntries, entryAt?_eq_some_iff (pairwise_ne_sortEntries ns)] at hlast
  obtain ⟨s, hs⟩ := h.exists_read (mem_of_mem_sortEntries hlast)
  obtain ⟨-, -, rfl⟩ := Json.readWithin_eq_object.1 hs
  exact pairwise_ne_sortEntries _

/-- A line is decided by the last result and the last error of its object. One of the two makes the
response; an error must be a report, and texts that are missing from it are blank. Both or neither
are refused, and so is a line that is no text of an object. The texts of objects are those that are
read as objects, in which values nest at most 126 deep. -/
theorem ofLine_decided (text : Utf8.Bytes) :
    ((∃ ns, ObjectText 126 text ns) ↔ ∃ ms, Json.read text = .ok (.object ms)) ∧
    (∀ ns, ObjectText 126 text ns →
      (∀ value, lastValue? "result" ns = some value → lastValue? "error" ns = none →
        ofLine text = .ok (.result value)) ∧
      (∀ report, lastValue? "result" ns = none → lastValue? "error" ns = some report →
        (∀ e, ofLine text = .ok (.error e) ↔ e.ReadFrom report) ∧
        ((∀ e, ¬ServiceError.ReadFrom e report) →
          ∃ fault, ofLine text = .error (.badError fault))) ∧
      (∀ value report, lastValue? "result" ns = some value → lastValue? "error" ns = some report →
        ofLine text = .error .bothResultAndError) ∧
      (lastValue? "result" ns = none → lastValue? "error" ns = none →
        ofLine text = .error .neitherResultNorError) ∧
      ∀ other ms, ObjectText 126 other ms →
        lastValue? "result" ms = lastValue? "result" ns →
          lastValue? "error" ms = lastValue? "error" ns → ofLine other = ofLine text) ∧
    ((∀ ns, ¬ObjectText 126 text ns) →
      (∀ j, Json.read text = .ok j → ofLine text = .error .notAnObject) ∧
      ∀ why, Json.read text = .error why → ofLine text = .error (.notJson why)) := by
  simp only [lastValue?]
  have hobject : (∃ ns, ObjectText 126 text ns) ↔ ∃ ms, Json.read text = .ok (.object ms) :=
    ⟨fun ⟨ns, h⟩ => ⟨_, Json.readWithin_eq_object.2 ⟨ns, h, rfl⟩⟩,
      fun ⟨ms, h⟩ => (Json.readWithin_eq_object.1 h).imp fun ns hns => hns.1⟩
  refine ⟨hobject, fun ns h => ?_, fun hnone => ⟨fun j hj => ?_, fun why hwhy => ?_⟩⟩
  · rw [ofLine_of_objectText h]
    refine ⟨fun value hresult herror => ?_, fun report hresult herror => ?_,
      fun value report hresult herror => ?_, fun hresult herror => ?_,
      fun other ms hother hresult herror => ?_⟩
    · simp only [ofMembers, hresult, herror]
    · refine ofMembers_error hresult herror fun parts hparts => ?_
      rw [hparts] at herror
      exact pairwise_ne_of_objectText h herror
    · simp only [ofMembers, hresult, herror]
    · simp only [ofMembers, hresult, herror]
    · rw [ofLine_of_objectText hother, ofMembers, hresult, herror, ofMembers]
  · cases j with
    | object ms =>
      obtain ⟨ns, hns⟩ := hobject.2 ⟨ms, hj⟩
      exact absurd hns (hnone ns)
    | null | bool | int | float | text | list => simp only [ofLine, hj]
  · rw [ofLine, hwhy]

/-- A null that comes last is the result, a report without a code has a blank one, two nulls are both,
and a list and a line without bytes are refused. -/
theorem ofLine_decided_nulls :
    ofLine (Utf8.encode (Json.chars
        (.object [("result", .text "old"), ("id", .int 7), ("result", .null)]))) =
      .ok (.result .null) ∧
    ofLine (Utf8.encode (Json.chars
        (.object [("id", .null), ("error", .object [("message", .text "bad query")])]))) =
      .ok (.error ⟨"", "bad query"⟩) ∧
    (∃ fault, ofLine (Utf8.encode (Json.chars (.object [("error", .null)]))) =
      .error (.badError fault)) ∧
    ofLine (Utf8.encode (Json.chars (.object [("error", .null), ("result", .null)]))) =
      .error .bothResultAndError ∧
    ofLine (Utf8.encode (Json.chars (.object [("id", .text "x")]))) =
      .error .neitherResultNorError ∧
    ofLine (Utf8.encode (Json.chars
        (.object [("result", .int 1), ("id", .text "x"), ("result", .null)]))) =
      ofLine (Utf8.encode (Json.chars (.object [("result", .null)]))) ∧
    ofLine (Utf8.encode (Json.chars (.list []))) = .error .notAnObject ∧
    ∃ why, ofLine [] = .error (.notJson why) := by
  have hlist : Json.read (Utf8.encode (Json.chars (.list []))) = .ok (.list []) :=
    Json.readWithin_chars trivial trivial (by decide)
  have hempty : Json.read [] = .error (.behind .endInValue [] 0) := rfl
  refine ⟨?_, ?_, ?_, ?_, ?_, ?_, ?_, ?_⟩
  · refine ((ofLine_decided _).2.1 _ (Json.objectText_chars ?_)).1 .null rfl rfl
    simp [Json.FloatFree, Json.Canonical, Json.depth, Json.IntFits]
  · refine (((ofLine_decided _).2.1 _ (Json.objectText_chars ?_)).2.1 _ rfl rfl).1 _ |>.2 ?_
    · simp [Json.FloatFree, Json.Canonical, Json.depth, Json.membersDepth, Json.MembersFloatFree,
        Json.MembersCanonical, Ascending]
    · exact ⟨.inr ⟨rfl, rfl⟩, .inl rfl⟩
  · refine (((ofLine_decided _).2.1 _ (Json.objectText_chars ?_)).2.1 .null rfl rfl).2 fun e h => h
    simp [Json.FloatFree, Json.Canonical, Json.depth]
  · refine ((ofLine_decided _).2.1 _ (Json.objectText_chars ?_)).2.2.1 .null .null rfl rfl
    simp [Json.FloatFree, Json.Canonical, Json.depth]
  · refine ((ofLine_decided _).2.1 _ (Json.objectText_chars ?_)).2.2.2.1 rfl rfl
    simp [Json.FloatFree, Json.Canonical, Json.depth]
  · refine ((ofLine_decided _).2.1 _ (Json.objectText_chars ?_)).2.2.2.2 _ _
      (Json.objectText_chars ?_) rfl rfl
    · simp [Json.FloatFree, Json.Canonical, Json.depth]
    · simp [Json.FloatFree, Json.Canonical, Json.depth, Json.IntFits]
  · refine ((ofLine_decided _).2.2 fun ns hns => ?_).1 _ hlist
    obtain ⟨ms, hms⟩ := (ofLine_decided _).1.1 ⟨ns, hns⟩
    cases hlist.symm.trans hms
  · refine ⟨_, ((ofLine_decided _).2.2 fun ns hns => ?_).2 _ hempty⟩
    obtain ⟨ms, hms⟩ := (ofLine_decided _).1.1 ⟨ns, hns⟩
    cases hempty.symm.trans hms

end Response

end SiteAtlas
