import SiteAtlas.Channel.Clock
import SiteAtlas.Error.Channel
import SiteAtlas.Text.Utf8

/-!
Byte streams as their reactions to writes, flushes and reads. A reaction is used up by one operation
unless it is final; a stream without reactions left takes every write and is at its end for reads.
-/
namespace SiteAtlas.Channel

open Utf8 (Bytes)

inductive WriteReaction where
  /-- all bytes are taken -/
  | all
  /-- no more than this many bytes are taken -/
  | upTo (limit : Nat)
  | hang
  | fail (why : IoFailure)
  deriving DecidableEq, Repr

inductive FlushReaction where
  | done
  | hang
  | fail (why : IoFailure)
  deriving DecidableEq, Repr

inductive ReadReaction where
  /-- bytes that come after a delay; none at all are the end of the stream -/
  | chunk (bytes : Bytes) (delay : Nat)
  | done
  | hang
  | fail (why : IoFailure)
  deriving DecidableEq, Repr

structure Stream where
  writes : List WriteReaction
  flushes : List FlushReaction
  reads : List ReadReaction
  deriving DecidableEq, Repr, Inhabited

def chunkLimit : Nat := 65536

def chunks : Nat → Bytes → List Bytes
  | 0, bytes => [bytes]
  | fuel + 1, bytes =>
    if bytes.length ≤ chunkLimit then [bytes]
    else bytes.take chunkLimit :: chunks fuel (bytes.drop chunkLimit)

/-- Reads of bytes of any length: only the first chunk has to be waited for. -/
def pieces (bytes : Bytes) (delay : Nat) : List ReadReaction :=
  match chunks (bytes.length / chunkLimit) bytes with
  | [] => []
  | first :: rest => .chunk first delay :: rest.map fun bytes => .chunk bytes 0

inductive Reply where
  | done
  | failed (why : IoFailure)
  | hangs
  deriving DecidableEq, Repr

/-- What came of writing: how it ended, the pieces that were taken, the reactions left. -/
structure Written where
  reply : Reply
  taken : List Bytes
  writes : List WriteReaction
  deriving DecidableEq, Repr

/-- Write until everything is taken. Taking nothing is a failure. -/
def writeAll : List WriteReaction → Bytes → Written
  | writes, [] => ⟨.done, [], writes⟩
  | [], bytes => ⟨.done, [bytes], []⟩
  | .all :: writes, bytes => ⟨.done, [bytes], writes⟩
  | .upTo 0 :: writes, _ => ⟨.failed ⟨.writeZero, none⟩, [], writes⟩
  | .upTo (n + 1) :: writes, bytes =>
    let rest := writeAll writes (bytes.drop (n + 1))
    { rest with taken := bytes.take (n + 1) :: rest.taken }
  | .hang :: writes, _ => ⟨.hangs, [], .hang :: writes⟩
  | .fail why :: writes, _ => ⟨.failed why, [], writes⟩

def flush : List FlushReaction → Reply × List FlushReaction
  | [] => (.done, [])
  | .done :: flushes => (.done, flushes)
  | .hang :: flushes => (.hangs, .hang :: flushes)
  | .fail why :: flushes => (.failed why, flushes)

def Stream.send (s : Stream) (bytes : Bytes) : Reply × List Bytes × Stream :=
  let written := writeAll s.writes bytes
  match written.reply with
  | .done =>
    let (reply, flushes) := flush s.flushes
    (reply, written.taken, { s with writes := written.writes, flushes := flushes })
  | reply => (reply, written.taken, { s with writes := written.writes })

end SiteAtlas.Channel
