import SiteAtlas.Wire.Method

/-!
Response envelopes: a line of JSON that carries exactly one of a result and an error.
-/
namespace SiteAtlas

/-- What a service reports when a request failed; either text may be blank. -/
structure ServiceError where
  code : String
  message : String
  deriving DecidableEq, Repr, Inhabited

namespace ServiceError

def shape : Shape ServiceError where
  title := "ServiceError"
  blank := ⟨"", ""⟩
  fields := [
    ⟨"code", [], .defaulted, Codec.text, ServiceError.code, fun v r => { r with code := v }⟩,
    ⟨"message", [], .defaulted, Codec.text, ServiceError.message,
      fun v r => { r with message := v }⟩]

def codeOr (e : ServiceError) (default : String) : String :=
  if e.code.isEmpty then default else e.code

end ServiceError

inductive Response where
  | result (value : Json)
  | error (report : ServiceError)
  deriving Inhabited

inductive EnvelopeFault where
  | notJson (why : Json.ReadError)
  /-- the error member does not have the shape of one -/
  | badError (fault : Fault)
  | notAnObject
  | bothResultAndError
  | neitherResultNorError

def EnvelopeFault.message : EnvelopeFault → String
  | .notJson why => s!"invalid JSON in response: {why.message}"
  | .badError fault => s!"invalid JSON in response: {fault.message}"
  | .notAnObject => "response is not a JSON object"
  | .bothResultAndError => "response carries both 'result' and 'error'"
  | .neitherResultNorError => "response carries neither 'result' nor 'error'"

namespace Response

def isError : Response → Bool
  | .result _ => false
  | .error _ => true

/-- The response of an object's members; all but the two envelope members are skipped. -/
def ofMembers (members : List (String × Json)) : Except EnvelopeFault Response :=
  match entryAt? "result" members, entryAt? "error" members with
  | some value, none => .ok (.result value)
  | none, some report => (ServiceError.shape.decode report).mapError .badError |>.map .error
  | some _, some _ => .error .bothResultAndError
  | none, none => .error .neitherResultNorError

/-- The response of a line without its line end. -/
def ofLine (line : Utf8.Bytes) : Except EnvelopeFault Response :=
  match Json.read line with
  | .error e => .error (.notJson e)
  | .ok (.object members) => ofMembers members
  | .ok _ => .error .notAnObject

/-- The envelope that echoes a request's token. -/
def envelope (id : String) : Response → Json
  | .result value => .ofMembers [("id", .text id), ("result", value)]
  | .error report => .ofMembers [("id", .text id), ("error", ServiceError.shape.encode report)]

def line (r : Response) (id : String) : List Char := (r.envelope id).chars ++ ['\n']

end Response

end SiteAtlas
