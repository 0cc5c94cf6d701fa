import SiteAtlas.Channel.Stream

/-!
The outside world of a channel: what attempts to connect lead to, and a record of everything that
was attempted, written and read.
-/
namespace SiteAtlas.Channel

open Utf8 (Bytes)

inductive Acceptance where
  | accepted (stream : Stream)
  | hang
  | refused (why : IoFailure)
  deriving DecidableEq, Repr

structure Opening where
  delay : Nat
  acceptance : Acceptance
  deriving DecidableEq, Repr

/-- When an attempt to connect is decided, unless it never is. -/
def Opening.decidedAfter (o : Opening) : Option Nat :=
  match o.acceptance with
  | .hang => none
  | _ => some o.delay

/-- What happened, on connections numbered by the attempts to connect. -/
inductive Event where
  | connecting (number : Nat)
  /-- a line is about to be written -/
  | sending (number : Nat) (line : Bytes)
  | wrote (number : Nat) (bytes : Bytes)
  | read (number : Nat) (bytes : Bytes)
  deriving DecidableEq, Repr

structure Network where
  openings : List Opening
  /-- what further attempts to connect lead to -/
  refusal : IoFailure
  log : List Event
  deriving DecidableEq, Repr

namespace Network

def connects (n : Network) : Nat :=
  n.log.countP fun
    | .connecting _ => true
    | _ => false

def record (n : Network) (events : List Event) : Network := { n with log := n.log ++ events }

/-- Attempt to connect: the number of the attempt and what it leads to. -/
def connect (n : Network) : Nat × Opening × Network :=
  let number := n.connects
  let n := n.record [.connecting number]
  match n.openings with
  | [] => (number, ⟨0, .refused n.refusal⟩, n)
  | opening :: openings => (number, opening, { n with openings := openings })

end Network

end SiteAtlas.Channel
