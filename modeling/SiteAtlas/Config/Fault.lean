import SiteAtlas.Text.Quoted
import SiteAtlas.Decimal.Layout

/-!
Why a configuration could not be read.
-/
namespace SiteAtlas.Config

inductive SettingFound where
  | bool (value : Bool)
  | int (value : Int)
  /-- an integer beyond 64 bits -/
  | wideInt (value : Int)
  | float (value : Float)
  | text (value : String)
  | sequence
  | map

/-- Whole floats keep a zero after the point, however large they are. -/
def floatLayout : Decimal.Layout := { Decimal.plain with wholeMark := ".0" }

def SettingFound.message : SettingFound → String
  | .bool b => s!"boolean `{b}`"
  | .int n => s!"integer `{n}`"
  | .wideInt n => s!"integer `{n}` as " ++ (if n < Nat.pow 2 127 then "i128" else "u128")
  | .float x => s!"floating point `{Decimal.write floatLayout x}`"
  | .text s => "string " ++ Text.quoted s
  | .sequence => "sequence"
  | .map => "map"

inductive SettingFault where
  /-- the text is not well-formed; no more is said about it -/
  | malformed
  | wrongType (found : SettingFound) (want : String)
  | wrongValue (found : SettingFound) (want : String)

def SettingFault.message : SettingFault → String
  | .malformed => "..."
  | .wrongType found want => s!"invalid type: {found.message}, expected {want}"
  | .wrongValue found want => s!"invalid value: {found.message}, expected {want}"

inductive FileFailure where
  | notFound | isDirectory | notText
  /-- any other failure, in the words of the system -/
  | refused (report : String)
  deriving DecidableEq, Repr

def FileFailure.message : FileFailure → String
  | .notFound => "No such file or directory (os error 2)"
  | .isDirectory => "Is a directory (os error 21)"
  | .notText => "stream did not contain valid UTF-8"
  | .refused report => report

end SiteAtlas.Config
