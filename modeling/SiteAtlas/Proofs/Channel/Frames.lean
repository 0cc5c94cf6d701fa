import SiteAtlas.Proofs.Channel.Attempts
import SiteAtlas.Proofs.Channel.Segments

/-!
# Frames are lines

However a stream cuts its bytes into chunks, the frames that are read from it one after another are
the lines of all bytes that arrive, and what stands behind the last of them is left for the next
call. What arrives, and how the stream stops, is told from its reactions alone.
-/
namespace SiteAtlas.Channel

open Utf8 (Bytes)

/-- The bytes that arrive before a stream stops. A chunk without bytes is its end. -/
def arrived : List ReadReaction → Bytes
  | .chunk bytes _ :: reads => if bytes.isEmpty then [] else bytes ++ arrived reads
  | _ => []

def halt : List ReadReaction → ReadStop
  | .chunk bytes _ :: reads => if bytes.isEmpty then .closed else halt reads
  | .fail why :: _ => .failed why
  | .hang :: _ => .late
  | .done :: _ | [] => .closed

/-- The reactions within a time. What would come later does not come. -/
def inTime : Nat → List ReadReaction → List ReadReaction
  | time, .chunk bytes delay :: reads =>
    if delay ≤ time then .chunk bytes delay :: inTime (time - delay) reads else [.hang]
  | _, reads => reads

def waiting : List ReadReaction → Nat
  | .chunk _ delay :: reads => delay + waiting reads
  | _ => 0

theorem arrived_chunk {bytes : Bytes} (h : bytes.isEmpty = false) (delay : Nat)
    (reads : List ReadReaction) :
    arrived (.chunk bytes delay :: reads) = bytes ++ arrived reads := by
  rw [arrived, h]
  rfl

theorem halt_chunk {bytes : Bytes} (h : bytes.isEmpty = false) (delay : Nat)
    (reads : List ReadReaction) : halt (.chunk bytes delay :: reads) = halt reads := by
  rw [halt, h]
  rfl

theorem inTime_eq_self {time : Nat} {reads : List ReadReaction} (h : waiting reads ≤ time) :
    inTime time reads = reads := by
  induction reads generalizing time with
  | nil => rfl
  | cons reaction reads ih =>
    cases reaction with
    | chunk bytes delay =>
      rw [waiting] at h
      rw [inTime, if_pos (by omega), ih (by omega)]
    | done | hang | fail => rfl

/-- A frame is the first line of what was buffered and what arrives. What stands behind it is left,
in the buffer or on the stream, and the stream stops as before. -/
theorem readFrame_ok {deadline : Nat} {clock : Clock} {buffer frame rest : Bytes}
    {reads left : List ReadReaction}
    (h : (readFrame deadline clock buffer reads).frame = .ok (frame, rest, left)) :
    buffer ++ arrived reads = frame ++ lineEnd :: (rest ++ arrived left) ∧ lineEnd ∉ frame ∧
      halt left = halt reads ∧ waiting left ≤ waiting reads := by
  fun_induction readFrame deadline clock buffer reads with
  | case1 clock buffer reads line tail hcut =>
    cases h
    obtain ⟨hbytes, hline⟩ := cutLine?_eq_some hcut
    refine ⟨?_, hline, rfl, Nat.le_refl _⟩
    rw [hbytes, List.append_assoc, List.cons_append]
  | case10 clock buffer _ bytes delay reads _ _ hbytes more ih =>
    obtain ⟨hframe, hline, hhalt, hwaiting⟩ := ih h
    have hchunk : bytes.isEmpty = false := by simpa using hbytes
    refine ⟨?_, hline, ?_, ?_⟩
    · rw [arrived_chunk hchunk, ← List.append_assoc, hframe]
    · rw [halt_chunk hchunk, hhalt]
    · rw [waiting]
      omega
  | _ => cases h

/-- Unless the caller gives up, there is a frame if and only if a line is there in time; otherwise
the error tells how the stream stopped. -/
theorem readFrame_frame {deadline : Nat} {clock : Clock} {buffer : Bytes}
    {reads : List ReadReaction} (hnow : clock.now ≤ deadline)
    (h : (readFrame deadline clock buffer reads).frame ≠ .error .abandoned) :
    let heard := inTime (deadline - clock.now) reads
    (segments (buffer ++ arrived heard) = [] ∧
        (readFrame deadline clock buffer reads).frame = .error (halt heard)) ∨
      ∃ line lines rest left, segments (buffer ++ arrived heard) = line :: lines ∧
        (readFrame deadline clock buffer reads).frame = .ok (line, rest, left) := by
  -- Where no byte is added, what was buffered has no line, and the reading stops.
  have stopped {buffer : Bytes} (hcut : cutLine? buffer = none) {heard : List ReadReaction}
      (hnone : arrived heard = []) : segments (buffer ++ arrived heard) = [] := by
    rw [hnone, List.append_nil]
    exact cutLine?_eq_none hcut
  fun_induction readFrame deadline clock buffer reads with
  | case1 clock buffer reads line rest hcut =>
    exact .inr ⟨line, _, rest, reads, segments_of_cutLine? hcut _, rfl⟩
  | case2 _ _ hcut | case3 _ _ hcut | case4 _ _ hcut | case6 _ _ hcut =>
    exact .inl ⟨stopped hcut rfl, rfl⟩
  | case5 | case8 => exact absurd rfl h
  | case7 clock buffer hcut bytes delay reads hlate =>
    have hdelay : ¬ delay ≤ deadline - clock.now := by
      have := Clock.lt_of_await_late hlate
      omega
    rw [inTime, if_neg hdelay]
    exact .inl ⟨stopped hcut rfl, rfl⟩
  | case9 clock buffer hcut bytes delay reads clock' hready hempty =>
    have hdelay : delay ≤ deadline - clock.now := by
      have := Clock.le_of_await_ready hready
      omega
    rw [inTime, if_pos hdelay]
    refine .inl ⟨stopped hcut ?_, ?_⟩
    · rw [arrived, if_pos hempty]
    · rw [halt, if_pos hempty]
  | case10 clock buffer _ bytes delay reads clock' hready hbytes more ih =>
    have hdelay := Clock.le_of_await_ready hready
    obtain rfl := Clock.eq_of_await_ready hready
    have hchunk : bytes.isEmpty = false := by simpa using hbytes
    have hleft : deadline - (clock.now + delay) = deadline - clock.now - delay := by omega
    have hmore := ih hdelay h
    rw [inTime, if_pos (by omega)]
    simp only [arrived_chunk hchunk, halt_chunk hchunk, ← List.append_assoc, ← hleft]
    exact hmore

theorem readFrame_ne_abandoned {deadline : Nat} {clock : Clock} {buffer : Bytes}
    {reads : List ReadReaction} (h : clock.patience = none) :
    (readFrame deadline clock buffer reads).frame ≠ .error .abandoned := by
  fun_induction readFrame deadline clock buffer reads with
  | case5 clock _ _ _ hgone | case8 clock _ _ _ _ _ hgone =>
    exact absurd hgone (Clock.await_ne_abandoned h)
  | case10 clock _ _ _ _ _ clock' hready _ _ ih =>
    obtain rfl := Clock.eq_of_await_ready hready
    exact ih h
  | _ => simp

/-- A call for a frame: when it is made, and how long it may wait. -/
structure Turn where
  now : Nat
  deadline : Nat
  deriving DecidableEq, Repr

def Turn.Suffices (turn : Turn) (reads : List ReadReaction) : Prop :=
  turn.now + waiting reads ≤ turn.deadline

/-- What came of calling for frames: the frames, and what the last call left in the buffer and on
the stream, or why there was no further frame. -/
structure FramesRead where
  frames : List Bytes
  ending : Except ReadStop (Bytes × List ReadReaction)
  deriving Repr

def FramesRead.remaining (r : FramesRead) : Except ReadStop Bytes :=
  r.ending.map fun (rest, left) => rest ++ arrived left

/-- Call for one frame after another. A channel without a frame is dropped, so the first error is
the last call. -/
def readFrames : List Turn → Bytes → List ReadReaction → FramesRead
  | [], buffer, reads => ⟨[], .ok (buffer, reads)⟩
  | turn :: turns, buffer, reads =>
    match (readFrame turn.deadline ⟨turn.now, none⟩ buffer reads).frame with
    | .error stop => ⟨[], .error stop⟩
    | .ok (frame, rest, left) =>
      let more := readFrames turns rest left
      { more with frames := frame :: more.frames }

variable {turn : Turn} {turns : List Turn} {buffer : Bytes} {reads : List ReadReaction}

theorem readFrames_of_error {stop : ReadStop}
    (h : (readFrame turn.deadline ⟨turn.now, none⟩ buffer reads).frame = .error stop)
    (turns : List Turn) : readFrames (turn :: turns) buffer reads = ⟨[], .error stop⟩ := by
  rw [readFrames, h]

theorem readFrames_of_ok {frame rest : Bytes} {left : List ReadReaction}
    (h : (readFrame turn.deadline ⟨turn.now, none⟩ buffer reads).frame = .ok (frame, rest, left))
    (turns : List Turn) :
    (readFrames (turn :: turns) buffer reads).frames =
        frame :: (readFrames turns rest left).frames ∧
      (readFrames (turn :: turns) buffer reads).remaining =
        (readFrames turns rest left).remaining := by
  rw [FramesRead.remaining, readFrames, h]
  exact ⟨rfl, rfl⟩

/-- The lines of all bytes are the frame and the lines of what it leaves. -/
theorem segments_of_readFrame {deadline : Nat} {clock : Clock} {frame rest : Bytes}
    {left : List ReadReaction}
    (h : (readFrame deadline clock buffer reads).frame = .ok (frame, rest, left)) :
    segments (buffer ++ arrived reads) = frame :: segments (rest ++ arrived left) := by
  obtain ⟨hbytes, hline, -, -⟩ := readFrame_ok h
  rw [hbytes, segments_append hline]

/-- Whatever the time, the frames are the first lines, and no byte is lost between the calls. -/
theorem frames_first (turns : List Turn) (buffer : Bytes) (reads : List ReadReaction) :
    (readFrames turns buffer reads).frames <+: segments (buffer ++ arrived reads) ∧
      ∀ rest, (readFrames turns buffer reads).remaining = .ok rest →
        (readFrames turns buffer reads).frames.length = turns.length ∧
          buffer ++ arrived reads = joinLines (readFrames turns buffer reads).frames ++ rest := by
  induction turns generalizing buffer reads with
  | nil =>
    refine ⟨List.nil_prefix, fun rest hrest => ⟨rfl, ?_⟩⟩
    cases hrest
    rfl
  | cons turn turns ih =>
    cases hframe : (readFrame turn.deadline ⟨turn.now, none⟩ buffer reads).frame with
    | error stop =>
      rw [readFrames_of_error hframe]
      exact ⟨List.nil_prefix, fun rest hrest => nomatch hrest⟩
    | ok read =>
      obtain ⟨frame, rest, left⟩ := read
      obtain ⟨hframes, hremaining⟩ := readFrames_of_ok hframe turns
      obtain ⟨hfirst, hrest⟩ := ih rest left
      rw [hframes, hremaining, segments_of_readFrame hframe]
      refine ⟨(List.prefix_cons_inj frame).2 hfirst, fun more hmore => ?_⟩
      obtain ⟨hlength, hbytes⟩ := hrest more hmore
      refine ⟨congrArg (· + 1) hlength, ?_⟩
      rw [(readFrame_ok hframe).1, hbytes, joinLines_cons, List.append_assoc, List.cons_append]

/-- If there is time, every line is a frame, and a call that finds no line tells how the stream
stopped. -/
theorem frames_in_time (buffer : Bytes) (h : ∀ turn ∈ turns, turn.Suffices reads) :
    (readFrames turns buffer reads).frames =
        (segments (buffer ++ arrived reads)).take turns.length ∧
      ∀ why, (readFrames turns buffer reads).remaining = .error why ↔
        (segments (buffer ++ arrived reads)).length < turns.length ∧ why = halt reads := by
  induction turns generalizing buffer reads with
  | nil =>
    refine ⟨rfl, fun why => ⟨fun hwhy => ?_, fun hwhy => ?_⟩⟩
    · cases hwhy
    · exact absurd hwhy.1 (Nat.not_lt_zero _)
  | cons turn turns ih =>
    have hturn : turn.now + waiting reads ≤ turn.deadline := h turn List.mem_cons_self
    have hheard : inTime (turn.deadline - turn.now) reads = reads := inTime_eq_self (by omega)
    have hspec := @readFrame_frame turn.deadline ⟨turn.now, none⟩ buffer reads
      (show turn.now ≤ turn.deadline by omega) (readFrame_ne_abandoned rfl)
    simp only [hheard] at hspec
    rcases hspec with ⟨hnone, hframe⟩ | ⟨frame, lines, rest, left, hlines, hframe⟩
    · rw [readFrames_of_error hframe, hnone]
      refine ⟨rfl, fun why => ⟨fun hwhy => ?_, fun hwhy => ?_⟩⟩
      · cases hwhy
        exact ⟨Nat.succ_pos _, rfl⟩
      · rw [hwhy.2]
        rfl
    · obtain ⟨hframes, hremaining⟩ := readFrames_of_ok hframe turns
      obtain ⟨-, -, hhalt, hwaiting⟩ := readFrame_ok hframe
      have hleft : ∀ turn ∈ turns, turn.Suffices left := by
        intro other hother
        have := h other (List.mem_cons_of_mem turn hother)
        rw [Turn.Suffices] at this ⊢
        omega
      obtain ⟨hmore, hends⟩ := ih rest hleft
      rw [hframes, hremaining, segments_of_readFrame hframe, hmore, List.length_cons,
        List.take_succ_cons]
      refine ⟨rfl, fun why => ?_⟩
      rw [hends why, hhalt, List.length_cons, Nat.add_lt_add_iff_right]

/-- The frames that are read one after another are the lines of all bytes that are buffered or
arrive, in order, and nothing else; what stands behind the last of them is left for the next call. A
line in the buffer is a frame without any reading. If there is time, every line is a frame, and only
a call for which there is none fails, as the stream stopped. So it does not matter how the bytes are
cut into chunks. -/
theorem frames_are_lines (turns : List Turn) (buffer : Bytes) (reads : List ReadReaction) :
    let bytes := buffer ++ arrived reads
    let run := readFrames turns buffer reads
    (run.frames <+: segments bytes ∧ ∀ rest, run.remaining = .ok rest →
        run.frames.length = turns.length ∧ bytes = joinLines run.frames ++ rest) ∧
      (∀ line rest, buffer = line ++ lineEnd :: rest → lineEnd ∉ line → ∀ deadline clock,
        readFrame deadline clock buffer reads = ⟨.ok (line, rest, reads), []⟩) ∧
      ((∀ turn ∈ turns, turn.Suffices reads) →
        run.frames = (segments bytes).take turns.length ∧
        (∀ why, run.remaining = .error why ↔
          (segments bytes).length < turns.length ∧ why = halt reads) ∧
        ∀ (others : List Turn) (buffer' : Bytes) (reads' : List ReadReaction),
          others.length = turns.length → (∀ turn ∈ others, turn.Suffices reads') →
          buffer' ++ arrived reads' = bytes → halt reads' = halt reads →
          (readFrames others buffer' reads').frames = run.frames ∧
            (readFrames others buffer' reads').remaining = run.remaining) := by
  intro bytes run
  refine ⟨frames_first turns buffer reads, ?_, fun h => ?_⟩
  · intro line rest hbuffer hline deadline clock
    subst hbuffer
    unfold readFrame
    rw [cutLine?_append hline]
  · obtain ⟨hframes, hends⟩ := frames_in_time buffer h
    refine ⟨hframes, hends, fun others buffer' reads' hlength h' hbytes hhalt => ?_⟩
    obtain ⟨hframes', hends'⟩ := frames_in_time buffer' h'
    rw [hbytes, hlength] at hframes' hends'
    have hsame : (readFrames others buffer' reads').frames = run.frames :=
      hframes'.trans hframes.symm
    refine ⟨hsame, ?_⟩
    cases hremaining : run.remaining with
    | error why => exact (hends' why).2 (hhalt ▸ (hends why).1 hremaining)
    | ok rest =>
      have hrest := (frames_first turns buffer reads).2 rest hremaining
      cases hremaining' : (readFrames others buffer' reads').remaining with
      | error why =>
        have hwhy := (hends' why).1 hremaining'
        rw [hhalt] at hwhy
        cases hremaining.symm.trans ((hends why).2 hwhy)
      | ok rest' =>
        have hrest' := ((frames_first others buffer' reads').2 rest' hremaining').2
        rw [hbytes, hsame, show bytes = _ from hrest.2] at hrest'
        rw [List.append_cancel_left hrest']

/-- A frame, an empty frame and a byte behind them, in one chunk and in four. -/
example :
    let turns : List Turn := [⟨0, 4⟩, ⟨7, 11⟩, ⟨2, 6⟩]
    let whole := readFrames turns [] [.chunk [0x61, 0x0a, 0x0a, 0x62] 1, .done]
    let single := readFrames turns []
      [.chunk [0x61] 1, .chunk [0x0a] 1, .chunk [0x0a] 1, .chunk [0x62] 1, .done]
    whole = ⟨[[0x61], []], .error .closed⟩ ∧ single = whole :=
  ⟨rfl, rfl⟩

end SiteAtlas.Channel
