/-!
The exact value of a binary floating-point number: a sign and a natural number times a power of two.
-/
namespace SiteAtlas.Decimal

/-- The non-negative value `mantissa * 2 ^ exponent`. -/
structure Dyadic where
  mantissa : Nat
  exponent : Int
  deriving DecidableEq, Repr

/-- What a double stands for. The flag `lone` marks a power of two, whose lower neighbour is closer
than its upper one. -/
inductive View where
  | nan
  | infinite (negative : Bool)
  | finite (negative : Bool) (size : Dyadic) (lone : Bool)
  deriving DecidableEq, Repr

/-- Read the three bit fields of a double: sign, exponent of eleven bits, fraction of 52 bits. -/
def viewBits (bits : Nat) : View :=
  let negative := bits / Nat.pow 2 63 % 2 == 1
  let exponent : Nat := bits / Nat.pow 2 52 % 2048
  let fraction := bits % Nat.pow 2 52
  if exponent = 2047 then (if fraction = 0 then .infinite negative else .nan)
  else if exponent = 0 then .finite negative ⟨fraction, -1074⟩ false
  else
    .finite negative ⟨fraction + Nat.pow 2 52, (exponent : Int) - 1075⟩
      (fraction == 0 && 1 < exponent)

def view (x : Float) : View := viewBits x.toBits.toNat

structure Ratio where
  numerator : Nat
  denominator : Nat
  deriving DecidableEq, Repr

/-- `mantissa * 2 ^ exponent * 10 ^ shift` as a fraction. -/
def Dyadic.scaled (d : Dyadic) (shift : Int) : Ratio :=
  ⟨d.mantissa * Nat.pow 2 d.exponent.toNat * Nat.pow 10 shift.toNat,
    Nat.pow 2 (-d.exponent).toNat * Nat.pow 10 (-shift).toNat⟩

/-- The nearest natural number; a half goes to the even neighbour. -/
def Ratio.roundEven (r : Ratio) : Nat :=
  let q := r.numerator / r.denominator
  let rest := 2 * (r.numerator % r.denominator)
  if rest < r.denominator then q
  else if r.denominator < rest then q + 1
  else if q % 2 = 0 then q else q + 1

/-- The nearest natural number; a half goes up. -/
def Ratio.roundUp (r : Ratio) : Nat := (2 * r.numerator + r.denominator) / (2 * r.denominator)

def floor? (x : Float) : Option Int :=
  match view x with
  | .finite negative d _ =>
    let r := d.scaled 0
    some (Int.fdiv (if negative then -(r.numerator : Int) else r.numerator) r.denominator)
  | _ => none

def isFinite (x : Float) : Bool :=
  match view x with
  | .finite .. => true
  | _ => false

end SiteAtlas.Decimal
