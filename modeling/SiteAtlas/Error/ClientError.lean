import SiteAtlas.Config.Fault
import SiteAtlas.Error.Channel
import SiteAtlas.Wire.Response

/-!
Errors of the client: causes, and for each its kind, its code and its message.
-/
namespace SiteAtlas

inductive ErrorKind where
  | connection | timeout | notFound | map | path | action | auth | setup | invalidInput | protocol
  deriving DecidableEq, Repr

def ErrorKind.word : ErrorKind → String
  | .connection => "connection"
  | .timeout => "timeout"
  | .notFound => "not found"
  | .map => "map"
  | .path => "pathfind"
  | .action => "action"
  | .auth => "auth"
  | .setup => "setup"
  | .invalidInput => "invalid input"
  | .protocol => "protocol"

def featureDimensions : Nat := 128

/-- Numbers that a request may carry only if they are finite. -/
inductive Quantity where
  | threshold | goalEntry | staleThreshold
  deriving DecidableEq, Repr

def Quantity.name : Quantity → String
  | .threshold => "feature threshold"
  | .goalEntry => "goal vector entry"
  | .staleThreshold => "stale_threshold"

/-- Why arguments or settings were refused before anything was sent. -/
inductive Rejection where
  | emptyDomain
  /-- nothing is left of the input once all but the host is dropped -/
  | emptyHost (input : String)
  | emptyUrl
  | dimension (dimension : UInt8)
  | notFinite (what : Quantity) (value : Float)
  | goalLength (length : Nat)
  | unreadableConfig (path : String) (why : Config.FileFailure)
  | badConfig (why : Config.SettingFault)
  | badTimeout (raw : String)
  | stated (message : String)

def Rejection.message : Rejection → String
  | .emptyDomain => "domain cannot be empty"
  | .emptyHost input => s!"domain cannot be empty (input was {Text.quoted input})"
  | .emptyUrl => "url cannot be empty"
  | .dimension d => s!"feature dimension {d.toNat} is out of range (0..{featureDimensions})"
  | .notFinite what x => s!"{what.name} must be finite, got {Decimal.write Decimal.plain x}"
  | .goalLength n => s!"Goal vector must be {featureDimensions} dimensions, got {n}"
  | .unreadableConfig path why => s!"cannot read client config {path}: {why.message}"
  | .badConfig why => s!"invalid client config: {why.message}"
  | .badTimeout raw => s!"CARTOGRAPH_TIMEOUT_MS must be milliseconds, got {Text.quoted raw}"
  | .stated message => message

/-- Why an answer of the service was not accepted. -/
inductive Malformed where
  | envelope (fault : EnvelopeFault)
  | result (method : Method) (fault : Fault)
  | noSessionId
  | stated (message : String)

def Malformed.message : Malformed → String
  | .envelope fault => fault.message
  | .result method fault => s!"Malformed {method.name} result: {fault.message}"
  | .noSessionId => "auth result is missing session_id"
  | .stated message => message

inductive ClientError where
  | rejected (why : Rejection)
  | malformed (why : Malformed)
  | channel (why : ChannelFailure)
  /-- the service did not answer a handshake within so many nanoseconds -/
  | unresponsive (socket : String) (timeout : Nat)
  /-- an error of a given kind with a code and a message of its own -/
  | coded (kind : ErrorKind) (code message : String)

namespace ClientError

def kind : ClientError → ErrorKind
  | .rejected _ => .invalidInput
  | .malformed _ => .protocol
  | .channel why => if why.isTimeout then .timeout else .connection
  | .unresponsive .. => .setup
  | .coded kind _ _ => kind

/-- The machine-readable code; refused arguments and malformed answers have one code each. -/
def code : ClientError → String
  | .rejected _ | .coded .invalidInput _ _ => "E_INVALID_INPUT"
  | .malformed _ | .coded .protocol _ _ => "E_PROTOCOL"
  | .channel why => why.code
  | .unresponsive .. => "E_START_TIMEOUT"
  | .coded _ code _ => code

def message : ClientError → String
  | .rejected why => why.message
  | .malformed why => why.message
  | .channel why => why.message
  | .unresponsive socket timeout =>
    s!"Service at {socket} did not respond within {Time.secondsTextOfNanos timeout}s. " ++
      "Check that it is running and that the socket path is correct."
  | .coded _ _ message => message

def display (e : ClientError) : String := s!"[{e.code}] {e.message}"

/-- The error was raised before anything reached the channel. -/
def isClientSide (e : ClientError) : Bool := e.kind == .invalidInput

/-- A service's report as an error of a kind. A blank code gives way to the default, and a blank
message says what failed. -/
def ofService (kind : ErrorKind) (report : ServiceError) (default : String) : ClientError :=
  .coded kind (report.codeOr default)
    (if report.message.isEmpty then s!"{kind.word} failed" else report.message)

end ClientError

end SiteAtlas
