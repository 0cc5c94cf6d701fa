import SiteAtlas.Proofs.Channel.Phases

/-!
# What an error tells

Unless its caller gives up, a request goes from phase to phase until one ends it. Since that is one
phase only, the kind and the code of the error tell which one it was and what happened in it.
-/
namespace SiteAtlas

open Utf8 (Bytes)
open Channel

namespace Channel

namespace Phase

def Late (timeout : Nat) (line : Bytes) : Phase → Prop
  | .connect opening _ => opening.Late timeout
  | .write stream _ _ => (stream.send line).1 = .hangs
  | .read buffer reads =>
    linesIn timeout buffer reads = [] ∧ halt (inTime timeout reads) = .late

/-- An attempt to connect fails in time, with a failure of this kind. -/
def Refuses (timeout : Nat) (kind : IoKind) : Phase → Prop
  | .connect opening _ => ∃ why, opening.Refuses timeout why ∧ why.kind = kind
  | .write .. | .read .. => False

end Phase

end Channel

namespace Transport

/-- The kind and the code of the error, if there is one. -/
def verdict : Except Interrupt Response → Option (ErrorKind × String)
  | .ok _ => none
  | .error stop => some (stop.error.kind, stop.error.code)

@[simp] theorem verdict_ok (response : Response) : verdict (.ok response) = none := rfl

section Marks

variable (t : Transport) (request : Request)

end Marks

variable {t : Transport} {request : Request} {p : Phase} {x : Except Interrupt Response}

end Transport

end SiteAtlas
