import SiteAtlas.Decimal.Shortest

/-!
Doubles that are read from decimals, in two ways. One takes the nearest double. The other one rounds
the digits to a double, the power of ten to another one, and their product or quotient once more:
the result may differ from the nearest double in its last place, and may be too large where the
nearest double is not.
-/
namespace SiteAtlas.Decimal.Scientific

/-- The nearest double; none if the decimal is too large for all of them. -/
def nearest? (negative : Bool) (s : Scientific) : Option Float :=
  let sign (x : Float) : Float := if negative then -x else x
  let leading := s.exponent + (digitCount s.digits : Int)
  if s.digits = 0 ∨ leading < -400 then some (sign 0)
  else if 400 < leading then none
  else
    let x := Float.ofScientific s.digits (s.exponent < 0) s.exponent.natAbs
    if x.isFinite then some (sign x) else none

def greatestPower : Nat := 308

def powerOfTen (n : Nat) : Float := Float.ofScientific 1 false n

/-- Divide by a power of ten, more than once if the power is too large for a double. A zero is left
as it is. -/
def divide (x : Float) (n : Nat) : Float :=
  if n ≤ greatestPower then x / powerOfTen n
  else if x == 0 then x
  else divide (x / powerOfTen greatestPower) (n - greatestPower)
termination_by n
decreasing_by
  simp only [greatestPower] at *
  omega

/-- The double in few steps: one multiplication, or divisions. None if it is too large. -/
def quick? (negative : Bool) (s : Scientific) : Option Float :=
  let sign (x : Float) : Float := if negative then -x else x
  let x := Float.ofNat s.digits
  let n := s.exponent.natAbs
  if s.exponent < 0 then some (sign (divide x n))
  else if n ≤ greatestPower then
    let y := x * powerOfTen n
    if y.isInf then none else some (sign y)
  else if s.digits = 0 then some (sign x) else none

end SiteAtlas.Decimal.Scientific
