import SiteAtlas.Channel.Reach
import SiteAtlas.Channel.Transport
import SiteAtlas.Client.Service

/-!
Local sockets: what stands at a path, and the clients of a service that may listen there.
-/
namespace SiteAtlas

open Utf8 (Bytes)
open Channel (Network Stream Surroundings)

inductive SocketPlace where
  | absent
  /-- something that takes no connections -/
  | deaf
  /-- a service that takes these connections, each with its answers -/
  | serving (connections : List (List Bytes))
  deriving DecidableEq, Repr

/-- A path and the world behind it, at a time in nanoseconds. -/
structure Socket where
  path : String
  present : Bool
  network : Network
  now : Nat
  deriving DecidableEq, Repr

namespace Socket

def pathLimit : Nat := 107

/-- A connection that answers every request with the next line, and ends after the last one. -/
def answering (lines : List Bytes) : Channel.Opening :=
  ⟨0, .accepted ⟨[], [], lines.flatMap fun line => Channel.pieces (line ++ [Channel.lineEnd]) 0⟩⟩

/-- What attempts to connect at a place lead to when no service takes them. -/
def refusal (path : String) (place : SocketPlace) : IoFailure :=
  if pathLimit < path.utf8ByteSize then ⟨.other, some "path must be shorter than SUN_LEN"⟩
  else
    match place with
    | .absent => ⟨.notFound, none⟩
    | _ => ⟨.connectionRefused, none⟩

def openings : SocketPlace → List Channel.Opening
  | .serving connections => connections.map answering
  | _ => []

def ofPlace (path : String) (place : SocketPlace) : Socket :=
  ⟨path, place ≠ .absent, ⟨openings place, refusal path place, []⟩, 0⟩

/-- A channel to the socket that is not open yet. -/
def transport (s : Socket) (timeout : Nat) : Transport := .ofNetwork s.path timeout s.network

def connects (s : Socket) : Bool :=
  match (s.transport 0).connect.1 with
  | .ok _ => true
  | .error _ => false

def probeTimeout : Nat := 2000

/-- Something stands at the path, and it answers a handshake with a result. -/
def isResponsive (s : Socket) : Bool × Socket :=
  if ¬ s.present then (false, s)
  else
    let (answer, t) := (s.transport probeTimeout).call none (.handshake, Params.handshake)
    let answered : Bool := match answer with
      | .ok (.result _) => true
      | _ => false
    (answered, { s with network := t.network })

theorem now_isResponsive (s : Socket) : s.isResponsive.2.now = s.now := by
  unfold isResponsive
  split <;> rfl

/-- The socket's own clock stands still but for pauses. -/
def surroundings : Surroundings Socket where
  read s := (s.now, s)
  pause d s := { s with now := s.now + d }
  probe := isResponsive
  now := now
  now_le_read _ := Nat.le_refl _
  read_le_now _ := Nat.le_refl _
  now_le_pause _ _ := Nat.le_refl _
  now_le_probe s := Nat.le_of_eq s.now_isResponsive.symm

def ensureReachable (s : Socket) (timeout : Nat) : Except ClientError Unit × Socket :=
  surroundings.ensureReachable s.path (timeout * Time.milli) s

/-- Wait until the service answers, and give a channel for requests to it. -/
def connect (s : Socket) (startup timeout : Nat) : Except ClientError Transport :=
  let (reached, s) := s.ensureReachable startup
  reached.map fun _ => s.transport timeout

end Socket

end SiteAtlas
