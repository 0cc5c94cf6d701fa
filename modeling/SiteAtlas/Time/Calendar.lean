/-!
The proleptic Gregorian calendar: days counted from the first of January of the year 1970.
-/
namespace SiteAtlas.Time

structure Date where
  year : Int
  month : Nat
  day : Nat
  deriving DecidableEq, Repr

def isLeap (year : Int) : Bool := year % 4 == 0 && (year % 100 != 0 || year % 400 == 0)

def monthLengths (leap : Bool) : List Nat :=
  [31, if leap then 29 else 28, 31, 30, 31, 30, 31, 31, 30, 31, 30, 31]

/-- Days from the first of January of the year 0 to that of another year. -/
def daysBeforeYear (year : Int) : Int :=
  365 * year + (year + 3) / 4 - (year + 99) / 100 + (year + 399) / 400

/-- Days from the first of January of the year 0 to the epoch. -/
def epochDay : Int := daysBeforeYear 1970

def Date.Valid (d : Date) : Prop :=
  1 ≤ d.month ∧ d.month ≤ 12 ∧ 1 ≤ d.day ∧
    d.day ≤ (monthLengths (isLeap d.year)).getD (d.month - 1) 0

instance (d : Date) : Decidable d.Valid := inferInstanceAs (Decidable (_ ∧ _ ∧ _ ∧ _))

def daysBeforeMonth (leap : Bool) (month : Nat) : Nat :=
  ((monthLengths leap).take (month - 1)).foldl (· + ·) 0

/-- The day's number; the epoch has number zero. -/
def Date.toDays (d : Date) : Int :=
  daysBeforeYear d.year + daysBeforeMonth (isLeap d.year) d.month + d.day - 1
    - epochDay

/-- The year that holds a day, given by its number from the year 0 on. The mean length of a year
gives a guess that is off by one at most. -/
def yearOfDay (n : Int) : Int :=
  let guess := n * 400 / 146097
  if n < daysBeforeYear guess then guess - 1
  else if daysBeforeYear (guess + 1) ≤ n then guess + 1
  else guess

/-- Month and day of a day of the year, both counted from zero. -/
def splitMonths : List Nat → Nat → Nat × Nat
  | [], n => (0, n)
  | length :: rest, n =>
    if n < length then (0, n)
    else
      let (month, day) := splitMonths rest (n - length)
      (month + 1, day)

def Date.ofDays (days : Int) : Date :=
  let n := days + epochDay
  let year := yearOfDay n
  let (month, day) := splitMonths (monthLengths (isLeap year)) (n - daysBeforeYear year).toNat
  ⟨year, month + 1, day + 1⟩

end SiteAtlas.Time
