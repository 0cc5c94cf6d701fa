import SiteAtlas.Decimal.Layout

/-!
Durations, and their text in seconds.
-/
namespace SiteAtlas.Time

def milli : Nat := 1000000

/-- The longest duration in nanoseconds: the whole seconds take 64 bits. -/
def longest : Nat := 18446744073709551616 * 1000000000 - 1

/-- Nanoseconds as seconds: whole seconds and the rest are converted apart. -/
def secondsOfNanos (nanos : Nat) : Float :=
  (nanos / 1000000000).toFloat + (nanos % 1000000000).toFloat / 1e9

def secondsTextOfNanos (nanos : Nat) : String := Decimal.fixed 1 (secondsOfNanos nanos)

def secondsText (millis : Nat) : String := secondsTextOfNanos (millis * milli)

end SiteAtlas.Time
