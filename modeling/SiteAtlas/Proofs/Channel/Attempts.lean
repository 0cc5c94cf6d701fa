import Mathlib.Data.List.TakeWhile
import SiteAtlas.Proofs.Channel.Traffic

/-!
# Attempts on record

What a log tells about attempts to connect, about lines that were about to be written and about
connections that were read from; and what the streams and openings ahead decide about the attempts
to come.
-/
namespace SiteAtlas

open Utf8 (Bytes)
open Channel

namespace Channel

def Event.attempt? : Event → Option Nat
  | .connecting number => some number
  | _ => none

def Event.line? : Event → Option (Nat × Bytes)
  | .sending number line => some (number, line)
  | _ => none

def Event.reader? : Event → Option Nat
  | .read number _ => some number
  | _ => none

def attempts (events : List Event) : List Nat := events.filterMap Event.attempt?

/-- The lines that were about to be written, each with its connection. -/
def lines (events : List Event) : List (Nat × Bytes) := events.filterMap Event.line?

def readers (events : List Event) : List Nat := events.filterMap Event.reader?

def beforeLines (events : List Event) : List Event := events.takeWhile fun e => e.line?.isNone

def fromLines (events : List Event) : List Event := events.dropWhile fun e => e.line?.isNone

@[simp] theorem attempts_append (a b : List Event) : attempts (a ++ b) = attempts a ++ attempts b :=
  List.filterMap_append

@[simp] theorem lines_append (a b : List Event) : lines (a ++ b) = lines a ++ lines b :=
  List.filterMap_append

@[simp] theorem readers_append (a b : List Event) : readers (a ++ b) = readers a ++ readers b :=
  List.filterMap_append

theorem connects_eq_length (n : Network) : n.connects = (attempts n.log).length := by
  rw [Network.connects, attempts, List.length_filterMap_eq_countP]
  refine List.countP_congr fun e _ => ?_
  cases e <;> simp [Event.attempt?]

/-- Every attempt counts. -/
theorem connects_of_log {n m : Network} {events : List Event} (h : m.log = n.log ++ events) :
    m.connects = n.connects + (attempts events).length := by
  rw [connects_eq_length, connects_eq_length, h, attempts_append, List.length_append]

/-- A line is about to be written on a connection, and pieces of it are taken. -/
def writing (number : Nat) (line : Bytes) (taken : List Bytes) : List Event :=
  .sending number line :: taken.map (.wrote number)

def reading (number : Nat) (received : List Bytes) : List Event := received.map (.read number)

variable {number : Nat} {line : Bytes} {taken received : List Bytes}

@[simp] theorem attempts_nil : attempts [] = [] := rfl

@[simp] theorem lines_nil : lines [] = [] := rfl

@[simp] theorem readers_nil : readers [] = [] := rfl

@[simp] theorem attempts_connecting (events : List Event) :
    attempts (.connecting number :: events) = number :: attempts events := rfl

@[simp] theorem lines_connecting (events : List Event) :
    lines (.connecting number :: events) = lines events := rfl

@[simp] theorem readers_connecting (events : List Event) :
    readers (.connecting number :: events) = readers events := rfl

@[simp] theorem attempts_writing : attempts (writing number line taken) = [] := by
  rw [attempts, List.filterMap_eq_nil_iff]
  simp [writing, Event.attempt?]

@[simp] theorem lines_writing : lines (writing number line taken) = [(number, line)] := by
  have htaken : lines (taken.map (.wrote number)) = [] := by
    rw [lines, List.filterMap_eq_nil_iff]
    simp [Event.line?]
  exact congrArg ((number, line) :: ·) htaken

@[simp] theorem readers_writing : readers (writing number line taken) = [] := by
  rw [readers, List.filterMap_eq_nil_iff]
  simp [writing, Event.reader?]

@[simp] theorem attempts_reading : attempts (reading number received) = [] := by
  rw [attempts, List.filterMap_eq_nil_iff]
  simp [reading, Event.attempt?]

@[simp] theorem lines_reading : lines (reading number received) = [] := by
  rw [lines, List.filterMap_eq_nil_iff]
  simp [reading, Event.line?]

theorem eq_of_mem_readers_reading {n : Nat} (h : n ∈ readers (reading number received)) :
    n = number := by
  obtain ⟨e, he, hn⟩ := List.mem_filterMap.1 h
  obtain ⟨bytes, _, rfl⟩ := List.mem_map.1 he
  exact (Option.some.inj hn).symm

theorem beforeLines_eq_self {before : List Event} (h : lines before = []) :
    beforeLines before = before ∧ fromLines before = [] := by
  have hnone : ∀ e ∈ before, e.line?.isNone = true := by
    simpa [lines, List.filterMap_eq_nil_iff] using h
  exact ⟨List.takeWhile_eq_self_iff.2 hnone, List.dropWhile_eq_nil_iff.2 hnone⟩

/-- The first line parts a log. -/
theorem beforeLines_append {before : List Event} (h : lines before = []) (rest : List Event) :
    beforeLines (before ++ (writing number line taken ++ rest)) = before ∧
      fromLines (before ++ (writing number line taken ++ rest)) =
        writing number line taken ++ rest := by
  have hnone : ∀ e ∈ before, e.line?.isNone = true := by
    simpa [lines, List.filterMap_eq_nil_iff] using h
  rw [beforeLines, fromLines, List.takeWhile_append_of_pos hnone,
    List.dropWhile_append_of_pos hnone]
  simp [writing, Event.line?]

/-- Writing a line on a stream fails because the peer is gone: the pipe is broken, or the connection
is reset. -/
def Stream.breaksOn (s : Stream) (line : Bytes) : Bool :=
  match (s.send line).1 with
  | .failed why => why.kind == .brokenPipe || why.kind == .connectionReset
  | _ => false

/-- The stream of an opening that is accepted within a time. -/
def Opening.streamWithin (o : Opening) (timeout : Nat) : Option Stream :=
  match o.acceptance with
  | .accepted stream => if o.delay ≤ timeout then some stream else none
  | _ => none

/-- The stream that an attempt to connect gives after a number of others. -/
def Network.streamAfter (n : Network) (others timeout : Nat) : Option Stream :=
  n.openings[others]?.bind (·.streamWithin timeout)

theorem streamAfter_zero (n : Network) (timeout : Nat) :
    n.streamAfter 0 timeout = n.connect.2.1.streamWithin timeout := by
  rw [Network.streamAfter]
  cases h : n.openings with
  | nil => rw [connect_of_nil h]; rfl
  | cons opening openings => rw [connect_of_cons h]; rfl

theorem streamAfter_connect (n : Network) (others timeout : Nat) :
    n.connect.2.2.streamAfter others timeout = n.streamAfter (others + 1) timeout := by
  rw [Network.streamAfter, openings_connect, List.getElem?_tail, Network.streamAfter]

namespace Clock

variable {c c' : Clock} {deadline delay : Nat}

/-- What comes too late comes after the deadline, since a caller who waits until then was there. -/
theorem lt_of_await_late (h : c.await deadline (some delay) = .late) :
    deadline < c.now + delay := by
  rw [await] at h
  by_contra hle
  have hle : c.now + delay ≤ deadline := Nat.le_of_not_lt hle
  split at h
  · cases h
  · rename_i hwaits
    have hgone : c.waitsUntil (c.now + delay) = false := by simpa [hle] using hwaits
    rw [expire] at h
    split at h
    · rename_i hstill
      cases hp : c.patience with
      | none => simp [waitsUntil, hp] at hgone
      | some p =>
        simp only [waitsUntil, hp, Option.all_some, decide_eq_true_eq, decide_eq_false_iff_not]
          at hstill hgone
        omega
    · cases h

theorem le_of_await_ready (h : c.await deadline (some delay) = .ready c') :
    c.now + delay ≤ deadline := by
  rw [await] at h
  split at h
  · rename_i hready
    exact hready.1
  · rw [expire] at h
    split at h <;> cases h

theorem eq_of_await_ready (h : c.await deadline (some delay) = .ready c') :
    c' = { c with now := c.now + delay } := by
  rw [await] at h
  split at h
  · exact (Wait.ready.inj h).symm
  · rw [expire] at h
    split at h <;> cases h

/-- What never happens is not waited out. -/
theorem await_none_ne_ready : c.await deadline none ≠ .ready c' := by
  rw [await, expire]
  split <;> simp

/-- Only a caller whose patience ends gives up. -/
theorem await_ne_abandoned (h : c.patience = none) {event : Option Nat} :
    c.await deadline event ≠ .abandoned := by
  cases event with
  | none => simp [await, expire, waitsUntil, h]
  | some delay =>
    rw [await]
    split
    · simp
    · simp [expire, waitsUntil, h]

theorem patience_of_await_abandoned {event : Option Nat}
    (h : c.await deadline event = .abandoned) : c.patience ≠ none :=
  fun hpatience => await_ne_abandoned hpatience h

end Clock

/-- A stream within a time is one that was accepted. -/
theorem Opening.eq_of_streamWithin {o : Opening} {timeout : Nat} {stream : Stream}
    (h : o.streamWithin timeout = some stream) : o = ⟨o.delay, .accepted stream⟩ := by
  obtain ⟨delay, acceptance⟩ := o
  rw [Opening.streamWithin] at h
  cases acceptance with
  | accepted s =>
    dsimp only at h
    split at h
    · rw [Option.some.inj h]
    · cases h
  | hang | refused => cases h

/-- Nothing comes of an attempt to connect within a time. -/
def Opening.Late (o : Opening) (timeout : Nat) : Prop := o.acceptance = .hang ∨ timeout < o.delay

/-- An attempt to connect fails within a time. -/
def Opening.Refuses (o : Opening) (timeout : Nat) (why : IoFailure) : Prop :=
  o.acceptance = .refused why ∧ o.delay ≤ timeout

theorem Opening.Late.streamWithin_eq_none {o : Opening} {timeout : Nat} (h : o.Late timeout) :
    o.streamWithin timeout = none := by
  obtain ⟨delay, acceptance⟩ := o
  rw [Opening.streamWithin]
  cases acceptance with
  | accepted stream =>
    have hlate : timeout < delay := h.resolve_left (by simp)
    exact if_neg (Nat.not_le.2 hlate)
  | hang | refused => rfl

theorem Opening.Refuses.streamWithin_eq_none {o : Opening} {timeout : Nat} {why : IoFailure}
    (h : o.Refuses timeout why) : o.streamWithin timeout = none := by
  rw [Opening.streamWithin, h.1]

/-- An attempt to connect takes too long, or is abandoned, or is decided in time. -/
theorem Opening.await_cases (o : Opening) (clock : Clock) (timeout : Nat) :
    let wait := clock.await (clock.now + timeout) o.decidedAfter
    wait = .late ∧ o.Late timeout ∨ wait = .abandoned ∧ clock.patience ≠ none ∨
      wait = .ready { clock with now := clock.now + o.delay } ∧ o.acceptance ≠ .hang ∧
        o.delay ≤ timeout := by
  intro wait
  by_cases hhang : o.acceptance = .hang
  · have hnever : clock.await (clock.now + timeout) none = wait := by
      simp only [wait, Opening.decidedAfter, hhang]
    cases hwait : wait with
    | late => exact .inl ⟨rfl, .inl hhang⟩
    | abandoned => exact .inr (.inl ⟨rfl, Clock.patience_of_await_abandoned hwait⟩)
    | ready => exact absurd (hnever.trans hwait) Clock.await_none_ne_ready
  · have hdecided : o.decidedAfter = some o.delay := by
      rw [Opening.decidedAfter]
      split
      · contradiction
      · rfl
    have hafter : clock.await (clock.now + timeout) (some o.delay) = wait := by rw [← hdecided]
    cases hwait : wait with
    | late =>
      have hlate : timeout < o.delay := by
        have := Clock.lt_of_await_late (hafter.trans hwait)
        omega
      exact .inl ⟨rfl, .inr hlate⟩
    | abandoned => exact .inr (.inl ⟨rfl, Clock.patience_of_await_abandoned hwait⟩)
    | ready =>
      have hready : o.delay ≤ timeout := by
        have := Clock.le_of_await_ready (hafter.trans hwait)
        omega
      rw [Clock.eq_of_await_ready (hafter.trans hwait)]
      exact .inr (.inr ⟨rfl, hhang, hready⟩)

end Channel

end SiteAtlas
