import SiteAtlas.Channel.Frame
import SiteAtlas.Channel.Network
import SiteAtlas.Client.Dialogue
import SiteAtlas.Wire.Request

/-!
The channel to a service: opened when it is first needed, one request and one response at a time,
each phase bounded by a timeout. It is kept for the next request only after a whole response. If
the peer is gone when a request is written, the channel is opened and the request written once more.
-/
namespace SiteAtlas

open Utf8 (Bytes)
open Channel (Clock Network Stream)

/-- An open channel: its number, its stream, and bytes read past the last line end. -/
structure Connection where
  number : Nat
  stream : Stream
  buffer : Bytes
  deriving DecidableEq, Repr

structure Transport where
  endpoint : String
  /-- the bound on each phase, in milliseconds -/
  timeout : Nat
  network : Network
  slot : Option Connection
  /-- how often a channel that broke was opened again -/
  reconnects : Nat
  /-- how many requests were made -/
  requests : Nat
  deriving DecidableEq, Repr

inductive Interrupt where
  | failed (why : ChannelFailure)
  /-- a whole frame came that is not a response -/
  | malformed (why : EnvelopeFault)
  /-- the caller gave up -/
  | abandoned

def Interrupt.error : Interrupt → ClientError
  | .failed why => .channel why
  | .malformed why => .malformed (.envelope why)
  | .abandoned => .channel .closed

inductive SendStop where
  | failed (why : IoFailure)
  | late
  | abandoned
  deriving DecidableEq, Repr

namespace Transport

def ofNetwork (endpoint : String) (timeout : Nat) (network : Network) : Transport :=
  ⟨endpoint, timeout, network, none, 0, 0⟩

def isConnected (t : Transport) : Bool := t.slot.isSome

def connects (t : Transport) : Nat := t.network.connects

def openChannel (t : Transport) (clock : Clock) :
    Except Interrupt (Connection × Clock) × Transport :=
  let (number, opening, network) := t.network.connect
  let t := { t with network := network }
  match clock.await (clock.now + t.timeout) opening.decidedAfter with
  | .late => (.error (.failed (.connectTimeout t.endpoint t.timeout)), t)
  | .abandoned => (.error .abandoned, t)
  | .ready clock =>
    match opening.acceptance with
    | .accepted stream => (.ok (⟨number, stream, []⟩, clock), t)
    | .refused why => (.error (.failed (.connect t.endpoint why)), t)
    | .hang => (.error (.failed (.connectTimeout t.endpoint t.timeout)), t)

def write (t : Transport) (clock : Clock) (c : Connection) (line : Bytes) :
    Except SendStop Connection × Transport :=
  let (reply, taken, stream) := c.stream.send line
  let t := { t with
    network := t.network.record (.sending c.number line :: taken.map (.wrote c.number)) }
  match reply with
  | .done => (.ok { c with stream := stream }, t)
  | .failed why => (.error (.failed why), t)
  | .hangs =>
    match clock.await (clock.now + t.timeout) none with
    | .abandoned => (.error .abandoned, t)
    | _ => (.error .late, t)

/-- Write a line on a channel; if the peer is gone, open another one and write once more. -/
def writeOrReopen (t : Transport) (clock : Clock) (method : Method) (c : Connection)
    (line : Bytes) : Except Interrupt (Connection × Clock) × Transport :=
  match t.write clock c line with
  | (.ok c, t) => (.ok (c, clock), t)
  | (.error .late, t) => (.error (.failed (.sendTimeout method t.timeout)), t)
  | (.error .abandoned, t) => (.error .abandoned, t)
  | (.error (.failed why), t) =>
    if ¬ why.isBroken then (.error (.failed (.send method why)), t)
    else
      match t.openChannel clock with
      | (.error stop, t) => (.error stop, t)
      | (.ok (c, clock), t) =>
        let t := { t with reconnects := t.reconnects + 1 }
        match t.write clock c line with
        | (.ok c, t) => (.ok (c, clock), t)
        | (.error .late, t) => (.error (.failed (.sendTimeout method t.timeout)), t)
        | (.error .abandoned, t) => (.error .abandoned, t)
        | (.error (.failed why), t) =>
          (.error (.failed (if why.isBroken then .brokenAgain method why else .send method why)), t)

/-- Read a response from a channel. -/
def receive (t : Transport) (clock : Clock) (method : Method) (c : Connection) :
    Except Interrupt (Response × Connection) × Transport :=
  let result := Channel.readFrame (clock.now + t.timeout) clock c.buffer c.stream.reads
  let t := { t with network := t.network.record (result.received.map (.read c.number)) }
  match result.frame with
  | .error .closed => (.error (.failed .closed), t)
  | .error (.failed why) => (.error (.failed (.receive why)), t)
  | .error .late => (.error (.failed (.receiveTimeout method t.timeout)), t)
  | .error .abandoned => (.error .abandoned, t)
  | .ok (frame, buffer, reads) =>
    match Response.ofLine frame with
    | .error why => (.error (.malformed why), t)
    | .ok response =>
      (.ok (response, { c with stream := { c.stream with reads := reads }, buffer := buffer }), t)

/-- The channel given, or a new one. -/
def useOrOpen (t : Transport) (clock : Clock) :
    Option Connection → Except Interrupt (Connection × Clock) × Transport
  | some c => (.ok (c, clock), t)
  | none => t.openChannel clock

/-- One request and its response, over the channel given or a new one. -/
def roundTrip (t : Transport) (clock : Clock) (channel : Option Connection) (request : Request) :
    Except Interrupt (Response × Connection) × Transport :=
  match t.useOrOpen clock channel with
  | (.error stop, t) => (.error stop, t)
  | (.ok (c, clock), t) =>
    match t.writeOrReopen clock request.method c request.bytes with
    | (.error stop, t) => (.error stop, t)
    | (.ok (c, clock), t) => t.receive clock request.method c

/-- Send a request and wait for its response. While it is under way the slot is empty. -/
def send (t : Transport) (patience : Option Nat) (request : Request) :
    Except Interrupt Response × Transport :=
  match { t with slot := none }.roundTrip (.start patience) t.slot request with
  | (.ok (response, c), t) => (.ok response, { t with slot := some c })
  | (.error stop, t) => (.error stop, t)

def connect (t : Transport) : Except Interrupt Unit × Transport :=
  match t.slot with
  | some _ => (.ok (), t)
  | none =>
    match t.openChannel (.start none) with
    | (.ok (c, _), t) => (.ok (), { t with slot := some c })
    | (.error stop, t) => (.error stop, t)

/-- Drop the channel and what was read from it. -/
def close (t : Transport) : Transport := { t with slot := none }

/-- Make a request with a token of its own. -/
def call (t : Transport) (patience : Option Nat) (c : Call) :
    Except Interrupt Response × Transport :=
  { t with requests := t.requests + 1 }.send patience ⟨requestToken t.requests, c.1, c.2⟩

def exchange : Exchange Transport := fun c t =>
  let (response, t) := t.call none c
  (response.mapError Interrupt.error, t)

/-- The bytes written, by connection, as the log tells them. -/
def written (t : Transport) : List (Nat × Bytes) :=
  t.network.log.filterMap fun
    | .wrote number bytes => some (number, bytes)
    | _ => none

end Transport

end SiteAtlas
