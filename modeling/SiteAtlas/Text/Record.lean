import SiteAtlas.Text.Quoted

/-!
Records and optional values as diagnostic texts show them: a name and, between braces, the fields
that may be seen. Two dots at the end say that there are others.
-/
namespace SiteAtlas.Text

def braced (items : List String) : String :=
  if items.isEmpty then "" else " \x7b " ++ ", ".intercalate items ++ " \x7d"

def fieldText (field : String × String) : String := field.1 ++ ": " ++ field.2

def record (name : String) (fields : List (String × String)) : String :=
  name ++ braced (fields.map fieldText)

/-- A record some of whose fields are left out. -/
def openRecord (name : String) (fields : List (String × String)) : String :=
  name ++ braced (fields.map fieldText ++ [".."])

def optional {α : Type} (text : α → String) : Option α → String
  | none => "None"
  | some a => "Some(" ++ text a ++ ")"

def redacted : String := quoted "<redacted>"

end SiteAtlas.Text
