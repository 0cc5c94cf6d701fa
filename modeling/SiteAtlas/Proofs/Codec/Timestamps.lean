import SiteAtlas.Page.Change
import SiteAtlas.Proofs.Codec.Fields
import SiteAtlas.Proofs.Time.Text
import SiteAtlas.Service.Session

/-!
# Timestamps read back

A session and a change carry a timestamp, which is written as text. They are read back as they were
if the year of the timestamp has four digits, and they are refused if it has not. A reader takes
such timestamps all the same, from a number of seconds and from a text with an offset.
-/
namespace SiteAtlas

open Time (Instant Offset)

namespace Codec

variable {α : Type}

/-- What is written for the value is refused. -/
def Refused (c : Codec α) (a : α) : Prop := ∃ fault, c.decode (c.encode a) = .error fault

/-- An instant that is read from some value. -/
def Readable (t : Instant) : Prop := ∃ j, instant.decode j = .ok t

theorem ofSeconds_eq_ok {x : Float} {t : Instant} (h : instant.ofSeconds x = .ok t) :
    Instant.ofSeconds? x = some t := by
  rw [instant.ofSeconds] at h
  split at h
  · rename_i hx
    cases h
    exact hx
  · cases h

theorem Readable.normal {t : Instant} (h : Readable t) : t.Normal := by
  obtain ⟨j, h⟩ := h
  cases j with
  | text s =>
    have h : (Instant.ofText s).mapError (Fault.badInstant s) = .ok t := h
    cases hs : Instant.ofText s with
    | error why => rw [hs] at h; cases h
    | ok u =>
      rw [hs] at h
      cases h
      exact Instant.normal_of_ofText hs
  | int n => exact Instant.normal_of_ofSeconds? (ofSeconds_eq_ok h)
  | float x => exact Instant.normal_of_ofSeconds? (ofSeconds_eq_ok h)
  | null | bool | list | object => cases h

theorem instant_decode_text {s : String} {t : Instant} (h : Instant.ofText s = .ok t) :
    instant.decode (.text s) = .ok t := by
  simp only [instant, h]
  rfl

theorem readsBack_instant {t : Instant} (h : t.Normal) (hyear : t.FourDigitYear) :
    instant.ReadsBack t :=
  instant_decode_text (Instant.ofText_text h hyear)

theorem refused_instant {t : Instant} (hyear : ¬ t.FourDigitYear) : instant.Refused t := by
  obtain ⟨why, hwhy⟩ := Instant.ofText_text_eq_error hyear
  refine ⟨.badInstant t.text why, ?_⟩
  simp only [instant, hwhy]
  rfl

/-- Every number of seconds in the calendar is read, whatever its year. -/
theorem instant_decode_float {x : Float} {whole : Int} (h : Decimal.floor? x = some whole)
    (hfirst : Time.firstDay ≤ whole / 86400) (hlast : whole / 86400 ≤ Time.lastDay) :
    instant.decode (.float x) = .ok ⟨whole, Time.nanosAbove whole x⟩ := by
  have hx : Instant.ofSeconds? x = some ⟨whole, Time.nanosAbove whole x⟩ :=
    Instant.ofSeconds?_eq_some_iff.2 ⟨whole, h, hfirst, hlast, rfl⟩
  simp only [instant, instant.ofSeconds, hx]

theorem Refused.optional {c : Codec α} {a : α} (h : c.Refused a) (hnull : c.encode a ≠ .null) :
    (Codec.optional c).Refused (some a) := by
  obtain ⟨fault, hfault⟩ := h
  refine ⟨fault, ?_⟩
  simp only [Codec.optional]
  cases hj : c.encode a with
  | null => exact absurd hj hnull
  | _ => rw [← hj, hfault]; rfl

end Codec

namespace Shape

variable {ρ : Type}

/-- A record is refused if one of its fields is. -/
theorem Regular.refused {s : Shape ρ} (h : s.Regular) {r : ρ} {f : Field ρ} (hf : f ∈ s.fields)
    (hr : f.codec.Refused (f.get r)) : s.codec.Refused r := by
  obtain ⟨fault, hfault⟩ := hr
  cases hdecode : s.decode (s.encode r) with
  | error fault => exact ⟨fault, hdecode⟩
  | ok u =>
    have hwritten : f.member r ∈ s.fields.map (·.member r) := List.mem_map.2 ⟨f, hf, rfl⟩
    obtain ⟨m, hm, hname⟩ := exists_mem_sortEntries hwritten
    obtain ⟨g, hg, rfl⟩ := List.mem_map.1 (mem_of_mem_sortEntries hm)
    obtain rfl := h.eq_of_name hg hf hname
    have hvalue : g.codec.encode (g.get r) ∈
        g.valuesIn (sortEntries (s.fields.map (·.member r))) :=
      Field.mem_valuesIn.2 ⟨g.name, hm, .inl rfl⟩
    have hread := (h.decode_object_eq_ok.1 hdecode g hg).decode_of_mem hvalue
    rw [hfault] at hread
    cases hread

end Shape

namespace Session

theorem lawful : shape.Lawful where
  known := by simp [shape, Shape.field?, Field.Known]
  get_put := by simp [shape]
  get_put_of_ne := by simp [shape]
  ext := by
    rintro ⟨⟩ ⟨⟩ h
    simpa [shape] using h

theorem regular : shape.Regular := ⟨lawful, by decide⟩

theorem readsBack {s : Session} (h : ∀ t ∈ s.expires, t.Normal ∧ t.FourDigitYear) :
    shape.codec.ReadsBack s := by
  have hexpires : (Codec.optional Codec.instant).ReadsBack s.expires :=
    Codec.readsBack_optional fun t ht =>
      ⟨Codec.readsBack_instant (h t ht).1 (h t ht).2, Json.noConfusion⟩
  apply lawful.readsBack
  simp [shape, hexpires]

theorem refused {s : Session} {t : Instant} (ht : s.expires = some t) (hyear : ¬ t.FourDigitYear) :
    shape.codec.Refused s := by
  have hexpires : (Codec.optional Codec.instant).Refused s.expires :=
    ht ▸ (Codec.refused_instant hyear).optional Json.noConfusion
  exact regular.refused (f := shape.fields[3]) (List.getElem_mem _) hexpires

end Session

namespace WatchDelta

def Finite (d : WatchDelta) : Prop :=
  ∀ e ∈ d.changed.entries, Decimal.isFinite e.2.1 = true ∧ Decimal.isFinite e.2.2 = true

instance (d : WatchDelta) : Decidable d.Finite := inferInstanceAs (Decidable
  (∀ e ∈ d.changed.entries, Decimal.isFinite e.2.1 = true ∧ Decimal.isFinite e.2.2 = true))

theorem lawful : shape.Lawful where
  known := by simp [shape, Shape.field?, Field.Known]
  get_put := by simp [shape]
  get_put_of_ne := by simp [shape]
  ext := by
    rintro ⟨⟩ ⟨⟩ h
    simpa [shape] using h

theorem regular : shape.Regular := ⟨lawful, by decide⟩

theorem readsBack {d : WatchDelta} (h : d.Finite) (hseen : d.seen.Normal)
    (hyear : d.seen.FourDigitYear) : shape.codec.ReadsBack d := by
  have hchanged := Codec.readsBack_table Codec.Key.lawful_byte (t := d.changed)
    (c := Codec.pair Codec.double Codec.double) fun e he =>
      Codec.readsBack_pairAs _ _ (Codec.readsBack_double_iff.2 (h e he).1)
        (Codec.readsBack_double_iff.2 (h e he).2)
  apply lawful.readsBack
  simp [shape, hchanged, Codec.readsBack_instant hseen hyear]

theorem refused {d : WatchDelta} (hyear : ¬ d.seen.FourDigitYear) : shape.codec.Refused d :=
  regular.refused (f := shape.fields[2]) (List.getElem_mem _) (Codec.refused_instant hyear)

end WatchDelta

/-- A session and a change, with any timestamp that can be read at all, are read back if there is no
timestamp or its year has four digits, and are refused otherwise. The others can be read all the
same: from every text whose offset brings the year back to four digits, and from every number of
seconds that lies in the calendar, of which the years of four digits are a part. -/
theorem timestamps_read_back :
    (∀ s : Session, (∀ t ∈ s.expires, Codec.Readable t) →
      ((∀ t ∈ s.expires, t.FourDigitYear) → Session.shape.codec.ReadsBack s) ∧
      ((∃ t ∈ s.expires, ¬ t.FourDigitYear) → Session.shape.codec.Refused s)) ∧
    (∀ d : WatchDelta, d.Finite → Codec.Readable d.seen →
      (d.seen.FourDigitYear → WatchDelta.shape.codec.ReadsBack d) ∧
      (¬ d.seen.FourDigitYear → WatchDelta.shape.codec.Refused d)) ∧
    (∀ t, Codec.Readable t → ∀ o : Offset, o.Valid → (t.shift o).FourDigitYear →
      Codec.instant.decode (.text (t.textAt o)) = .ok t) ∧
    ∀ (x : Float) (whole : Int), Decimal.floor? x = some whole →
      Time.firstDay ≤ whole / 86400 → whole / 86400 ≤ Time.lastDay →
      ∃ t, Codec.instant.decode (.float x) = .ok t ∧ t.seconds = whole ∧
        (t.FourDigitYear ↔ -62167219200 ≤ whole ∧ whole < 253402300800) := by
  refine ⟨fun s hs => ⟨fun hyear => ?_, ?_⟩, fun d hd hseen => ⟨fun hyear => ?_, fun hyear => ?_⟩,
    fun t ht o ho hyear => ?_, fun x whole hx hfirst hlast => ?_⟩
  · exact Session.readsBack fun t ht => ⟨(hs t ht).normal, hyear t ht⟩
  · rintro ⟨t, ht, hyear⟩
    exact Session.refused ht hyear
  · exact WatchDelta.readsBack hd hseen.normal hyear
  · exact WatchDelta.refused hyear
  · exact Codec.instant_decode_text (Instant.ofText_textAt ht.normal ho hyear)
  · exact ⟨_, Codec.instant_decode_float hx hfirst hlast, rfl, Instant.fourDigitYear_iff _⟩

/-- A leap second at the end of the year 9999 is read back. One of a minute later and the last
second before the year zero are read from texts with an offset of a minute, and a number of seconds
gives the new year 10000; what is written for these is refused. -/
theorem timestamps_read_back_at_limits :
    let last : Instant := ⟨253402300799, 1000000001⟩
    let later : Instant := ⟨253402300859, 1500000000⟩
    let before : Instant := ⟨-62167219201, 0⟩
    let session (t : Instant) : Session := ⟨"s-1", "a.com", "oauth", some t⟩
    let change (t : Instant) : WatchDelta := ⟨7, .ofList [(48, (29.5, 24.5))], t⟩
    Session.shape.codec.ReadsBack (session last) ∧ Session.shape.codec.Refused (session later) ∧
    WatchDelta.shape.codec.ReadsBack (change last) ∧
      WatchDelta.shape.codec.Refused (change before) ∧
    Codec.instant.decode (.text (later.textAt ⟨true, 0, 1⟩)) = .ok later ∧
    Codec.instant.decode (.text (before.textAt ⟨false, 0, 1⟩)) = .ok before ∧
    ∃ t, Codec.instant.decode (.float 253402300800.5) = .ok t ∧ t.seconds = 253402300800 ∧
      ¬ t.FourDigitYear := by
  intro last later before session change
  have hlast : Codec.Readable last := ⟨.text "9999-12-31T23:59:60.000000001Z", rfl⟩
  have hlater : Codec.Readable later := ⟨.text "9999-12-31T23:59:60.5-00:01", rfl⟩
  have hbefore : Codec.Readable before := ⟨.text "0000-01-01T00:00:59+00:01", rfl⟩
  have hyear : last.FourDigitYear := by decide
  have hyear' : ¬ later.FourDigitYear := by decide
  have hyear'' : ¬ before.FourDigitYear := by decide
  have hfinite : ∀ t, (change t).Finite := by
    intro t
    change WatchDelta.Finite ⟨7, .ofList [(48, (29.5, 24.5))], before⟩
    decide
  obtain ⟨hsession, hchange, htext, hnumber⟩ := timestamps_read_back
  refine ⟨(hsession (session last) fun t ht => Option.some.inj ht ▸ hlast).1
      fun t ht => Option.some.inj ht ▸ hyear,
    (hsession (session later) fun t ht => Option.some.inj ht ▸ hlater).2 ⟨later, rfl, hyear'⟩,
    (hchange (change last) (hfinite last) hlast).1 hyear,
    (hchange (change before) (hfinite before) hbefore).2 hyear'',
    htext later hlater ⟨true, 0, 1⟩ (by decide) (by decide),
    htext before hbefore ⟨false, 0, 1⟩ (by decide) (by decide), ?_⟩
  obtain ⟨t, ht, hseconds, hiff⟩ :=
    hnumber 253402300800.5 253402300800 (by decide) (by decide) (by decide)
  exact ⟨t, ht, hseconds, fun h => absurd (hiff.1 h).2 (by decide)⟩

end SiteAtlas
