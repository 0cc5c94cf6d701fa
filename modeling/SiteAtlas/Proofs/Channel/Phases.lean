import Mathlib.Logic.Relation
import SiteAtlas.Proofs.Channel.Course
import SiteAtlas.Proofs.Channel.Frames

/-!
# The phases of a request

A request goes through phases: an attempt to connect, the writing of its line, the reading of a
frame. What a phase meets, an opening or a stream, decides whether the next phase is reached or the
request ends, and how. So the outcome of a request is that of the phase which ends it.
-/
namespace SiteAtlas

open Utf8 (Bytes)
open Channel

namespace Channel

/-- The opening that an attempt to connect meets after a number of others. Without one it is
refused. -/
def Network.openingAfter (n : Network) (others : Nat) : Opening :=
  (n.openings[others]?).getD ⟨0, .refused n.refusal⟩

/-- A phase of a request and what it meets. To connect and to write may come again. -/
inductive Phase where
  | connect (opening : Opening) (again : Bool)
  | write (stream : Stream) (buffer : Bytes) (again : Bool)
  | read (buffer : Bytes) (reads : List ReadReaction)

def linesIn (timeout : Nat) (buffer : Bytes) (reads : List ReadReaction) : List Bytes :=
  segments (buffer ++ arrived (inTime timeout reads))

/-- How a phase ends a request. -/
inductive Phase.Ends (endpoint : String) (timeout : Nat) (request : Request) :
    Phase → Except Interrupt Response → Prop where
  | connectLate {opening : Opening} {again : Bool} (h : opening.Late timeout) :
      Ends endpoint timeout request (.connect opening again)
        (.error (.failed (.connectTimeout endpoint timeout)))
  | refused {opening : Opening} {again : Bool} {why : IoFailure}
      (h : opening.Refuses timeout why) :
      Ends endpoint timeout request (.connect opening again)
        (.error (.failed (.connect endpoint why)))
  | writeLate {stream : Stream} {buffer : Bytes} {again : Bool}
      (h : (stream.send request.bytes).1 = .hangs) :
      Ends endpoint timeout request (.write stream buffer again)
        (.error (.failed (.sendTimeout request.method timeout)))
  | unwritten {stream : Stream} {buffer : Bytes} {again : Bool} {why : IoFailure}
      (h : (stream.send request.bytes).1 = .failed why) (hpeer : why.isBroken = false) :
      Ends endpoint timeout request (.write stream buffer again)
        (.error (.failed (.send request.method why)))
  /-- the peer is gone again -/
  | lost {stream : Stream} {buffer : Bytes} {why : IoFailure}
      (h : (stream.send request.bytes).1 = .failed why) (hpeer : why.isBroken = true) :
      Ends endpoint timeout request (.write stream buffer true)
        (.error (.failed (.brokenAgain request.method why)))
  | readLate {buffer : Bytes} {reads : List ReadReaction} (h : linesIn timeout buffer reads = [])
      (hhalt : halt (inTime timeout reads) = .late) :
      Ends endpoint timeout request (.read buffer reads)
        (.error (.failed (.receiveTimeout request.method timeout)))
  | closed {buffer : Bytes} {reads : List ReadReaction} (h : linesIn timeout buffer reads = [])
      (hhalt : halt (inTime timeout reads) = .closed) :
      Ends endpoint timeout request (.read buffer reads) (.error (.failed .closed))
  | unread {buffer : Bytes} {reads : List ReadReaction} {why : IoFailure}
      (h : linesIn timeout buffer reads = []) (hhalt : halt (inTime timeout reads) = .failed why) :
      Ends endpoint timeout request (.read buffer reads) (.error (.failed (.receive why)))
  | malformed {buffer frame : Bytes} {lines : List Bytes} {reads : List ReadReaction}
      {why : EnvelopeFault} (h : linesIn timeout buffer reads = frame :: lines)
      (hframe : Response.ofLine frame = .error why) :
      Ends endpoint timeout request (.read buffer reads) (.error (.malformed why))
  | answered {buffer frame : Bytes} {lines : List Bytes} {reads : List ReadReaction}
      {response : Response} (h : linesIn timeout buffer reads = frame :: lines)
      (hframe : Response.ofLine frame = .ok response) :
      Ends endpoint timeout request (.read buffer reads) (.ok response)

end Channel

namespace Transport

/-- A phase does what it is for, or the first writing finds the peer gone; then another phase
follows. -/
inductive Next (t : Transport) (line : Bytes) : Phase → Phase → Prop where
  | opened {opening : Opening} {stream : Stream} {again : Bool}
      (h : opening.streamWithin t.timeout = some stream) :
      Next t line (.connect opening again) (.write stream [] again)
  | broken {stream : Stream} {buffer : Bytes} (h : stream.breaksOn line = true) :
      Next t line (.write stream buffer false)
        (.connect (t.network.openingAfter t.opens.length) true)
  | written {stream : Stream} {buffer : Bytes} {again : Bool}
      (h : (stream.send line).1 = .done) :
      Next t line (.write stream buffer again) (.read buffer (stream.send line).2.2.reads)

variable {t : Transport} {request : Request} {p q : Phase} {x y : Except Interrupt Response}

/-- What a request comes to from a phase on: its caller gives up, or a phase that is reached from
there ends it. -/
def ComesTo (t : Transport) (request : Request) (patience : Option Nat) (p : Phase)
    (x : Except Interrupt Response) : Prop :=
  x = .error .abandoned ∧ patience ≠ none ∨
    ∃ q, Relation.ReflTransGen (t.Next request.bytes) p q ∧ q.Ends t.endpoint t.timeout request x

variable {u : Transport} {patience : Option Nat} {clock : Clock} {c : Connection}

theorem ComesTo.of_ends (h : p.Ends t.endpoint t.timeout request x) :
    t.ComesTo request patience p x :=
  .inr ⟨p, .refl, h⟩

section Equations

variable {v w : Transport} {clock' : Clock} {c' d : Connection} {method : Method} {line : Bytes}
  {why : IoFailure}

variable (h : u.write clock c line = (.error (.failed why), v)) (hwhy : why.isBroken = true)
include h hwhy

variable (hopen : v.openChannel clock = (.ok (c', clock'), w))
include hopen

end Equations

end Transport

end SiteAtlas
