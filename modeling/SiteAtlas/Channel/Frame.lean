import SiteAtlas.Channel.Stream

/-!
Frames: the lines that a stream delivers. Bytes behind a line end are kept for the next frame.
-/
namespace SiteAtlas.Channel

open Utf8 (Bytes)

def lineEnd : UInt8 := 0x0a

/-- The first line and what follows its end, if there is one. -/
def cutLine? (bytes : Bytes) : Option (Bytes × Bytes) :=
  match bytes.dropWhile (· != lineEnd) with
  | [] => none
  | _ :: rest => some (bytes.takeWhile (· != lineEnd), rest)

inductive ReadStop where
  | closed
  | failed (why : IoFailure)
  | late
  | abandoned
  deriving DecidableEq, Repr

/-- What came of reading a frame: the frame, the bytes behind it and the reactions left, or why
there is none; and all bytes that were read for it. -/
structure FrameRead where
  frame : Except ReadStop (Bytes × Bytes × List ReadReaction)
  received : List Bytes

def readFrame (deadline : Nat) : Clock → Bytes → List ReadReaction → FrameRead
  | clock, buffer, reads =>
    match cutLine? buffer with
    | some (line, rest) => ⟨.ok (line, rest, reads), []⟩
    | none =>
      match reads with
      | [] | .done :: _ => ⟨.error .closed, []⟩
      | .fail why :: _ => ⟨.error (.failed why), []⟩
      | .hang :: _ =>
        match clock.await deadline none with
        | .abandoned => ⟨.error .abandoned, []⟩
        | _ => ⟨.error .late, []⟩
      | .chunk bytes delay :: reads =>
        match clock.await deadline (some delay) with
        | .late => ⟨.error .late, []⟩
        | .abandoned => ⟨.error .abandoned, []⟩
        | .ready clock =>
          if bytes.isEmpty then ⟨.error .closed, []⟩
          else
            let rest := readFrame deadline clock (buffer ++ bytes) reads
            { rest with received := bytes :: rest.received }

end SiteAtlas.Channel
