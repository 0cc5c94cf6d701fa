import SiteAtlas.Codec.Shape

/-!
Opcodes: what can be done on a page, as a category and an action within it.
-/
namespace SiteAtlas

structure Opcode where
  category : UInt8
  action : UInt8
  deriving DecidableEq, Repr, Inhabited

namespace Opcode

def codec : Codec Opcode :=
  (Codec.pairAs "tuple struct Opcode" "tuple struct Opcode with 2 elements" Codec.word8
    Codec.word8).imap (fun p => ⟨p.1, p.2⟩) (fun o => (o.category, o.action))

def display (o : Opcode) : String := s!"({Text.hexByte o.category}, {Text.hexByte o.action})"

end Opcode

end SiteAtlas
