import SiteAtlas.Error.ClientError
import SiteAtlas.Text.Blank
import SiteAtlas.Text.Record

/-!
Domains: the host of an address, with its port if it has one. Scheme, user, path, query, fragment
and dots at the end are dropped. The text is a piece of the input, and its letters keep their case.
-/
namespace SiteAtlas

/-- A normalized host. -/
structure Domain where
  text : String
  deriving DecidableEq, Repr, Inhabited

namespace Domain

/-- What follows the first mark between a scheme and its authority, if there is one. -/
def afterScheme? : List Char → Option (List Char)
  | [] => none
  | ':' :: '/' :: '/' :: rest => some rest
  | _ :: rest => afterScheme? rest

/-- Drop the scheme; without one, two leading slashes. -/
def dropScheme (cs : List Char) : List Char :=
  match afterScheme? cs with
  | some rest => rest
  | none =>
    match cs with
    | '/' :: '/' :: rest => rest
    | cs => cs

def endsAuthority (c : Char) : Bool := c == '/' || c == '?' || c == '#'

/-- What stands before path, query and fragment. -/
def authority (cs : List Char) : List Char := cs.takeWhile fun c => !endsAuthority c

/-- What follows the last at sign; everything if there is none. -/
def dropUser (cs : List Char) : List Char := (cs.reverse.takeWhile (· != '@')).reverse

def host (cs : List Char) : List Char :=
  Text.dropRight (· == '.') (dropUser (authority (dropScheme cs)))

/-- The domain of an address. Blanks around it are dropped, and a host must be left. -/
def parse (input : String) : Except Rejection Domain :=
  match Text.trim input.toList with
  | [] => .error .emptyDomain
  | cs =>
    match host cs with
    | [] => .error (.emptyHost input)
    | h => .ok ⟨String.ofList h⟩

def debug (d : Domain) : String := "Domain(" ++ Text.quoted d.text ++ ")"

def json (d : Domain) : Json := .text d.text

end Domain

end SiteAtlas
