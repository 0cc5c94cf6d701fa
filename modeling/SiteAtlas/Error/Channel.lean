import SiteAtlas.Wire.Method
import SiteAtlas.Time.Duration

/-!
What can go wrong with the channel to a service, by the phase of a call in which it does.
-/
namespace SiteAtlas

inductive IoKind where
  | notFound | permissionDenied | connectionRefused | connectionReset | connectionAborted
  | notConnected | addrInUse | brokenPipe | timedOut | writeZero | unexpectedEnd | other
  deriving DecidableEq, Repr

def IoKind.message : IoKind → String
  | .notFound => "entity not found"
  | .permissionDenied => "permission denied"
  | .connectionRefused => "connection refused"
  | .connectionReset => "connection reset"
  | .connectionAborted => "connection aborted"
  | .notConnected => "not connected"
  | .addrInUse => "address in use"
  | .brokenPipe => "broken pipe"
  | .timedOut => "timed out"
  | .writeZero => "write zero"
  | .unexpectedEnd => "unexpected end of file"
  | .other => "other error"

/-- A failed operation, with a text of its own if it has one. -/
structure IoFailure where
  kind : IoKind
  text : Option String
  deriving DecidableEq, Repr

namespace IoFailure

def message (e : IoFailure) : String := e.text.getD e.kind.message

/-- The peer is gone: the failures after which a request may be sent once more. -/
def isBroken (e : IoFailure) : Bool := e.kind == .brokenPipe || e.kind == .connectionReset

end IoFailure

/-- Why a call got no response. Times are in milliseconds. -/
inductive ChannelFailure where
  | connect (endpoint : String) (why : IoFailure)
  | connectTimeout (endpoint : String) (timeout : Nat)
  | send (method : Method) (why : IoFailure)
  /-- the channel broke on writing, was opened again and broke again -/
  | brokenAgain (method : Method) (why : IoFailure)
  | sendTimeout (method : Method) (timeout : Nat)
  | receive (why : IoFailure)
  | closed
  | receiveTimeout (method : Method) (timeout : Nat)
  deriving DecidableEq, Repr

namespace ChannelFailure

def isTimeout : ChannelFailure → Bool
  | .connectTimeout .. | .sendTimeout .. | .receiveTimeout .. => true
  | _ => false

def code : ChannelFailure → String
  | .connect _ why =>
    match why.kind with
    | .notFound => "E_SOCKET_NOT_FOUND"
    | .permissionDenied => "E_PERMISSION_DENIED"
    | .connectionRefused => "E_CONNECTION_REFUSED"
    | _ => "E_CONNECTION"
  | .connectTimeout .. => "E_CONNECT_TIMEOUT"
  | .sendTimeout .. => "E_SEND_TIMEOUT"
  | .receiveTimeout .. => "E_RECV_TIMEOUT"
  | .closed => "E_CONNECTION_CLOSED"
  | .send .. | .brokenAgain .. | .receive .. => "E_CONNECTION"

def message : ChannelFailure → String
  | .connect endpoint why =>
    match why.kind with
    | .notFound =>
      s!"Cannot connect to the cartography service at {endpoint}: no socket there. " ++
        "The service may not be running; start it and retry."
    | .permissionDenied =>
      s!"Permission denied on {endpoint}. " ++
        "Check the socket's file permissions or restart the service as this user."
    | .connectionRefused =>
      s!"The cartography service refused the connection at {endpoint}. " ++
        "The process may have crashed; restart it."
    | _ => s!"Cannot connect to the cartography service at {endpoint}: {why.message}"
  | .connectTimeout endpoint timeout =>
    s!"Timed out after {Time.secondsText timeout}s connecting to {endpoint}."
  | .send method why => s!"Failed to send {method.name} request: {why.message}"
  | .brokenAgain method why =>
    s!"Channel broke again after reconnecting while sending {method.name}: {why.message}"
  | .sendTimeout method timeout =>
    s!"Timed out after {Time.secondsText timeout}s sending the {method.name} request. " ++
      "The service may be overloaded."
  | .receive why => s!"Failed to read response: {why.message}"
  | .closed =>
    "Connection closed by the cartography service. " ++
      "The process may have crashed; check that it is still running."
  | .receiveTimeout method timeout =>
    s!"Timed out after {Time.secondsText timeout}s waiting for the {method.name} response. " ++
      "The operation may need a longer timeout."

end ChannelFailure

end SiteAtlas
