import SiteAtlas.Json.Reader
import SiteAtlas.Json.Printer
import SiteAtlas.Text.Quoted
import SiteAtlas.Time.Instant

/-!
Why a JSON value does not have the shape that was asked for.
-/
namespace SiteAtlas

/-- What stood in the place of an expected value. Containers are named without their content. -/
inductive Found where
  | null
  | bool (value : Bool)
  | int (value : Int)
  | float (value : Float)
  | text (value : String)
  | sequence
  | map

def Found.ofJson : Json → Found
  | .null => .null
  | .bool b => .bool b
  | .int n => .int n
  | .float x => .float x
  | .text s => .text s
  | .list _ => .sequence
  | .object _ => .map

def Found.message : Found → String
  | .null => "null"
  | .bool b => s!"boolean `{b}`"
  | .int n => s!"integer `{n}`"
  | .float x => s!"floating point `{Decimal.write Json.floatLayout x}`"
  | .text s => "string " ++ Text.quoted s
  | .sequence => "sequence"
  | .map => "map"

inductive Fault where
  /-- a value of another kind than wanted -/
  | wrongType (found : Found) (want : String)
  /-- a value of the right kind, but out of range or of another form -/
  | wrongValue (found : Found) (want : String)
  /-- a list of the wrong length -/
  | wrongLength (length : Nat) (want : String)
  | missingField (name : String)
  | duplicateField (name : String)
  | unknownVariant (name : String) (known : List String)
  /-- a key that had to be a number -/
  | notNumberKey
  /-- a key that starts as a number, but is not well-formed -/
  | keySyntax (error : Json.ReadError)
  /-- a key that is a number, but not one that fits; the column is in the key's text -/
  | inKey (fault : Fault) (column : Nat)
  | instantOutOfRange (seconds : Float)
  | badInstant (text : String) (why : Time.Refusal)
  /-- neither of the two forms of an instant -/
  | noInstant

def Fault.message : Fault → String
  | .wrongType found want => s!"invalid type: {found.message}, expected {want}"
  | .wrongValue found want => s!"invalid value: {found.message}, expected {want}"
  | .wrongLength length want => s!"invalid length {length}, expected {want}"
  | .missingField name => s!"missing field `{name}`"
  | .duplicateField name => s!"duplicate field `{name}`"
  | .unknownVariant name known =>
    s!"unknown variant `{name}`, expected one of " ++
      ", ".intercalate (known.map fun k => s!"`{k}`")
  | .notNumberKey => "invalid value: expected key to be a number in quotes"
  | .keySyntax error => error.message
  | .inKey fault column => s!"{fault.message} at line 1 column {column}"
  | .instantOutOfRange seconds =>
    "timestamp out of range: " ++ Decimal.write Decimal.plain seconds
  | .badInstant text why => s!"invalid timestamp {Text.quoted text}: {why.message}"
  | .noInstant => "data did not match any variant of untagged enum Raw"

end SiteAtlas
