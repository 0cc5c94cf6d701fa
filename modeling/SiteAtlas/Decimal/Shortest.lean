import SiteAtlas.Decimal.Binary

/-!
The shortest decimal that reads back as a given double, and of the shortest ones the nearest.

A double stands for the interval of reals that round to it; its ends belong to it when the mantissa
is even. For each number of digits the only candidates are the two neighbours of the value on the
decimal grid of that many digits: the first grid that has a candidate inside the interval wins.
-/
namespace SiteAtlas.Decimal

/-- The value `digits * 10 ^ exponent`. -/
structure Scientific where
  digits : Nat
  exponent : Int
  deriving DecidableEq, Repr

def digitCount (n : Nat) : Nat := (Nat.toDigits 10 n).length

/-- The exponent of the leading decimal digit of a positive dyadic number above `10 ^ -400`. -/
def Dyadic.leading (d : Dyadic) : Int :=
  let r := d.scaled 400
  (digitCount (r.numerator / r.denominator) : Int) - 1 - 400

/-- The reals that round to a double, in quarters of its last place. -/
structure Rounding where
  low : Nat
  middle : Nat
  high : Nat
  /-- the exponent of two of one quarter -/
  unit : Int
  closed : Bool

def Dyadic.rounding (d : Dyadic) (lone : Bool) : Rounding :=
  ⟨4 * d.mantissa - (if lone then 1 else 2), 4 * d.mantissa, 4 * d.mantissa + 2, d.exponent - 2,
    d.mantissa % 2 == 0⟩

/-- The member of the grid `10 ^ k` that lies in the interval and is nearest to the middle. -/
def Rounding.onGrid (i : Rounding) (k : Int) : Option Nat :=
  let one := (⟨1, i.unit⟩ : Dyadic).scaled (-k)
  let below := i.middle * one.numerator / one.denominator
  let inside (c : Nat) : Bool :=
    let v := c * one.denominator
    let lo := i.low * one.numerator
    let hi := i.high * one.numerator
    if i.closed then lo ≤ v && v ≤ hi else lo < v && v < hi
  let toBelow := i.middle * one.numerator - below * one.denominator
  let toAbove := (below + 1) * one.denominator - i.middle * one.numerator
  let belowNearer := toBelow < toAbove || (toBelow == toAbove && below % 2 == 0)
  match inside below, inside (below + 1) with
  | true, true => some (if belowNearer then below else below + 1)
  | true, false => some below
  | false, true => some (below + 1)
  | false, false => none

/-- Drop up to `fuel` trailing zeros. -/
def Scientific.stripWithin : Nat → Scientific → Scientific
  | 0, s => s
  | fuel + 1, s =>
    if s.digits ≠ 0 ∧ s.digits % 10 = 0 then stripWithin fuel ⟨s.digits / 10, s.exponent + 1⟩ else s

/-- The shortest decimal of a positive dyadic number; seventeen digits always suffice. -/
def Dyadic.shortest (d : Dyadic) (lone : Bool) : Scientific :=
  let i := d.rounding lone
  let top := d.leading
  let grids := (List.range 17).map fun (n : Nat) => top - n
  match grids.findSome? fun k => (i.onGrid k).map fun c => Scientific.mk c k with
  | some s => s.stripWithin 17
  | none => ⟨d.mantissa, 0⟩

end SiteAtlas.Decimal
