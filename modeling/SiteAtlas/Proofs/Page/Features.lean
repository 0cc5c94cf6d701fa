import SiteAtlas.Page.Features
import SiteAtlas.Proofs.Codec.Acceptance

/-!
# Feature vectors as objects

The keys of the object are the dimensions in decimal. A dimension has one text only, so no member of
the object is lost, and no two of them share a dimension. The order of texts is not that of numbers:
the vector is listed by numbers, and it is written with its texts in order again.
-/
namespace SiteAtlas.Features

open Codec (double_eq_ok readEntry_eq_ok)
open Codec.Key (byte exact_byte)

/-- A vector is read as the table that it is. -/
theorem decode_eq_ok {j : Json} {f : Features} :
    codec.decode j = .ok f ↔ (Codec.table byte Codec.double).decode j = .ok f.table := by
  refine map_eq_ok.trans ⟨?_, fun h => ⟨f.table, h, rfl⟩⟩
  rintro ⟨t, ht, rfl⟩
  exact ht

def IsEntry (m : String × Json) : Prop :=
  (∃ dimension : UInt8, m.1 = toString dimension.toNat) ∧ ∃ x, m.2.number? = some x

theorem exists_readEntry_iff {m : String × Json} :
    (∃ e, Codec.readEntry byte Codec.double m = .ok e) ↔ IsEntry m := by
  constructor
  · rintro ⟨⟨dimension, x⟩, h⟩
    obtain ⟨hkey, hvalue⟩ := (readEntry_eq_ok exact_byte).1 h
    exact ⟨⟨dimension, hkey⟩, x, double_eq_ok.1 hvalue⟩
  · rintro ⟨⟨dimension, hkey⟩, x, hvalue⟩
    exact ⟨(dimension, x), (readEntry_eq_ok exact_byte).2 ⟨hkey, double_eq_ok.2 hvalue⟩⟩

theorem exists_decode_iff {j : Json} : (∃ f, codec.decode j = .ok f) ↔
    ∃ members, j = .object members ∧ ∀ m ∈ members, IsEntry m := by
  constructor
  · rintro ⟨f, hf⟩
    obtain ⟨members, es, rfl, hes, -⟩ := Codec.table_eq_ok.1 (decode_eq_ok.1 hf)
    refine ⟨members, rfl, fun m hm => exists_readEntry_iff.1 ?_⟩
    exact exists_map_eq_map_ok.1 ⟨es, hes⟩ m hm
  · rintro ⟨members, rfl, h⟩
    obtain ⟨es, hes⟩ := exists_map_eq_map_ok.2 fun m hm => exists_readEntry_iff.2 (h m hm)
    exact ⟨⟨.ofList es⟩, decode_eq_ok.2 (Codec.table_eq_ok.2 ⟨members, es, rfl, hes, rfl⟩)⟩

/-- What is held in a dimension is the number at its text. -/
theorem get?_of_decode {members : List (String × Json)} {f : Features}
    (distinct : members.Pairwise fun m n => m.1 ≠ n.1)
    (h : codec.decode (.object members) = .ok f) (dimension : UInt8) :
    f.table.get? dimension =
      ((Json.object members).member? (toString dimension.toNat)).bind Json.number? := by
  refine Option.ext fun x => ?_
  rw [Codec.get?_of_table exact_byte distinct (decode_eq_ok.1 h), Option.bind_eq_some_iff]
  simp only [double_eq_ok, byte]

theorem pairwise_toList (f : Features) : f.toList.Pairwise fun e g => e.1 < g.1 :=
  f.table.ascending.imp Std.compare_eq_lt.1

/-- A vector is read from an object if all keys are decimal texts of dimensions, without sign,
leading zero, fraction, exponent or blank, and all values are numbers; and from nothing else. Each
member is then a dimension of its own with its number as the value, all others are zero, and the
vector is written with the same keys. -/
theorem decode_sparse :
    (∀ j, (∃ f, codec.decode j = .ok f) ↔
      ∃ members, j = .object members ∧ ∀ m ∈ members,
        (∃ dimension : UInt8, m.1 = toString dimension.toNat) ∧ ∃ x, m.2.number? = some x) ∧
    ∀ members f, Ascending members → codec.decode (.object members) = .ok f →
      f.size = members.length ∧
      (∀ dimension : UInt8, f.get dimension =
        (((Json.object members).member? (toString dimension.toNat)).bind Json.number?).getD 0.0) ∧
      (f.toList.Pairwise fun e g => e.1 < g.1) ∧
      ∃ written, codec.encode f = .object written ∧
        written.map Prod.fst = members.map Prod.fst := by
  refine ⟨fun j => exists_decode_iff, fun members f ascending h => ?_⟩
  have distinct := pairwise_ne_of_ascending ascending
  have htable := decode_eq_ok.1 h
  refine ⟨Codec.size_of_table exact_byte distinct htable, fun dimension => ?_, f.pairwise_toList,
    Codec.keys_of_table exact_byte ascending htable⟩
  rw [get, get?_of_decode distinct h]

/-- Three dimensions whose texts are sorted otherwise than their numbers; what looks like one of
them with a sign, a zero or a blank in front is refused. -/
theorem decode_sparse_sorted :
    let members : List (String × Json) := [("10", .int 3), ("200", .float 0.5), ("9", .float 1.5)]
    Ascending members ∧ (∃ f, codec.decode (.object members) = .ok f ∧ f.size = 3 ∧
      f.get 10 = Float.ofInt 3 ∧ f.get 1 = 0.0) ∧
    ∀ key ∈ ["01", "+1", "-0", " 1", "1.0", "1e0", "256", ""],
      ¬∃ f, codec.decode (.object [(key, .int 1)]) = .ok f := by
  intro members
  have ascending : Ascending members := by
    simp only [members, Ascending]
    decide
  obtain ⟨f, hf⟩ : ∃ f, codec.decode (.object members) = .ok f := by
    refine (decode_sparse.1 _).2 ⟨members, rfl, fun m hm => ?_⟩
    simp only [members, List.mem_cons, List.not_mem_nil, or_false] at hm
    obtain rfl | rfl | rfl := hm
    · exact ⟨⟨10, rfl⟩, _, rfl⟩
    · exact ⟨⟨200, rfl⟩, _, rfl⟩
    · exact ⟨⟨9, rfl⟩, _, rfl⟩
  obtain ⟨hsize, hget, -⟩ := decode_sparse.2 members f ascending hf
  refine ⟨ascending, ⟨f, hf, hsize, hget 10, hget 1⟩, fun key hkey haccepted => ?_⟩
  obtain ⟨_, hmembers, hentries⟩ := (decode_sparse.1 _).1 haccepted
  cases hmembers
  obtain ⟨⟨dimension, rfl⟩, -⟩ := hentries _ List.mem_cons_self
  have hnone : ∀ n < 256, toString n ∉ ["01", "+1", "-0", " 1", "1.0", "1e0", "256", ""] := by
    decide +kernel
  exact hnone _ dimension.toNat_lt hkey

end SiteAtlas.Features
