/-!
Time during one call, in milliseconds since its start. A phase of the call has a deadline, and the
caller may give up at some point; what happens in time happens first.
-/
namespace SiteAtlas.Channel

structure Clock where
  now : Nat
  /-- when the caller gives up -/
  patience : Option Nat
  deriving DecidableEq, Repr

inductive Wait where
  | ready (clock : Clock)
  /-- the deadline of the phase came first -/
  | late
  /-- the caller gave up first -/
  | abandoned
  deriving DecidableEq, Repr

namespace Clock

def start (patience : Option Nat) : Clock := ⟨0, patience⟩

def waitsUntil (c : Clock) (time : Nat) : Bool := c.patience.all (time ≤ ·)

/-- Nothing happens before the deadline. -/
def expire (c : Clock) (deadline : Nat) : Wait :=
  if c.waitsUntil deadline then .late else .abandoned

def await (c : Clock) (deadline : Nat) : Option Nat → Wait
  | some delay =>
    let time := c.now + delay
    if time ≤ deadline ∧ c.waitsUntil time then .ready { c with now := time } else c.expire deadline
  | none => c.expire deadline

end Clock

end SiteAtlas.Channel
