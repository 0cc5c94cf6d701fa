import SiteAtlas.Decimal.Shortest

/-!
Decimal text of doubles: the shortest digits laid out as a format wants them, and texts with a fixed
number of places.
-/
namespace SiteAtlas.Decimal

structure Layout where
  /-- the least exponent of the leading digit that is written positionally; without one, every -/
  least : Option Int
  /-- the greatest such exponent -/
  greatest : Option Int
  /-- what follows a whole number in positional notation -/
  wholeMark : String
  /-- the sign of a positive exponent in scientific notation -/
  plus : String
  deriving DecidableEq, Repr

/-- Digits, a point where it is needed, and zeros around them. -/
def positional (layout : Layout) (digits : String) (exponent : Int) : String :=
  let zeros (n : Nat) : String := String.ofList (List.replicate n '0')
  if 0 ≤ exponent then digits ++ zeros exponent.toNat ++ layout.wholeMark
  else
    let places := (-exponent).toNat
    if places < digits.length then
      let cs := digits.toList
      String.ofList (cs.take (cs.length - places)) ++ "." ++
        String.ofList (cs.drop (cs.length - places))
    else "0." ++ zeros (places - digits.length) ++ digits

/-- One digit before the point, and the exponent of that digit. -/
def scientific (layout : Layout) (digits : String) (leading : Int) : String :=
  let mantissa := match digits.toList with
    | [] => "0"
    | [d] => String.ofList [d]
    | d :: rest => String.ofList (d :: '.' :: rest)
  mantissa ++ "e" ++ (if 0 < leading then layout.plus else "") ++ toString leading

def Scientific.write (layout : Layout) (s : Scientific) : String :=
  let digits := toString s.digits
  let leading := s.exponent + digits.length - 1
  if layout.least.all (· ≤ leading) && layout.greatest.all (leading ≤ ·) then
    positional layout digits s.exponent
  else scientific layout digits leading

def signText (negative : Bool) : String := if negative then "-" else ""

def write (layout : Layout) (x : Float) : String :=
  match view x with
  | .nan => "NaN"
  | .infinite negative => signText negative ++ "inf"
  | .finite negative d lone =>
    signText negative ++
      (if d.mantissa = 0 then Scientific.write layout ⟨0, 0⟩ else (d.shortest lone).write layout)

/-- Plain digits however long, and no point in a whole number. -/
def plain : Layout := ⟨none, none, "", ""⟩

/-- A fixed number of places; a half goes to the even neighbour of the exact value. -/
def fixed (places : Nat) (x : Float) : String :=
  match view x with
  | .nan => "NaN"
  | .infinite negative => signText negative ++ "inf"
  | .finite negative d _ =>
    let digits := (toString (d.scaled places).roundEven).toList
    let padded := List.replicate (places + 1 - digits.length) '0' ++ digits
    let whole := padded.take (padded.length - places)
    let fraction := padded.drop (padded.length - places)
    signText negative ++ String.ofList whole ++
      (if places = 0 then "" else String.ofList ('.' :: fraction))

end SiteAtlas.Decimal
