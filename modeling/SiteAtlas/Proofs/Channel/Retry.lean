import SiteAtlas.Proofs.Channel.Course

/-!
# One retry

A request connects first if there is no channel, and once more if its first write fails because the
peer is gone. Then, and only then, it is written again; nothing that happens later makes it connect
or write once more. The reconnections are counted where the second connection is made.
-/
namespace SiteAtlas

open Utf8 (Bytes)
open Channel

namespace Transport

section Course

variable {line : Bytes} {number next : Nat} {first again : Option Stream} {abandoned : Prop}
  {events : List Event} {reopened : Nat} {kept : Option Nat}

theorem Course.parts (h : Course line number first next again abandoned events reopened kept)
    {before : List Event} (hbefore : lines before = []) :
    beforeLines (before ++ events) = before ∧ fromLines (before ++ events) = events := by
  cases h with
  | unopened =>
    rw [List.append_nil]
    exact beforeLines_eq_self hbefore
  | once | stranded | twice => exact beforeLines_append hbefore _

theorem Course.lines_eq (h : Course line number first next again abandoned events reopened kept) :
    lines events = [] ∧ reopened = 0 ∨ lines events = [(number, line)] ∧ reopened = 0 ∨
      lines events = [(number, line), (next, line)] ∧ reopened = 1 := by
  cases h with
  | unopened => exact .inl ⟨rfl, rfl⟩
  | once => simp
  | stranded => simp
  | twice => simp

theorem Course.writes (h : Course line number first next again abandoned events reopened kept)
    (hne : number ≠ next) :
    (∀ l ∈ lines events, l.2 = line) ∧ (lines events).length ≤ 2 ∧
      ((lines events).map Prod.fst).Nodup ∧
      reopened = if (lines events).length = 2 then 1 else 0 := by
  rcases h.lines_eq with ⟨hlines, rfl⟩ | ⟨hlines, rfl⟩ | ⟨hlines, rfl⟩
  · simp [hlines]
  · simp [hlines]
  · simp [hlines, hne]

/-- It connects again where the peer is gone, and nowhere else. -/
theorem Course.attempts_eq
    (h : Course line number first next again abandoned events reopened kept) :
    attempts events =
      if lines events ≠ [] ∧ first.any (·.breaksOn line) then [next] else [] := by
  cases h with
  | unopened => rfl
  | once hfirst h => simp [hfirst, h]
  | stranded hfirst h => simp [hfirst, h]
  | twice hfirst h => simp [hfirst, h]

theorem Course.finished (h : Course line number first next again abandoned events reopened kept)
    (hend : ¬ abandoned) :
    (lines events ≠ [] ↔ first.isSome) ∧
      ((lines events).length = 2 ↔ first.any (·.breaksOn line) ∧ again.isSome) := by
  cases h with
  | unopened h =>
    have hfirst := h.resolve_left hend
    simp [hfirst, lines]
  | once hfirst h => simp [hfirst, h]
  | stranded hfirst h hagain =>
    have hagain := hagain.resolve_left hend
    simp [hfirst, h, hagain]
  | twice hfirst h hagain => simp [hfirst, h, hagain]

/-- It reads from the last connection, and keeps no other. -/
theorem Course.last (h : Course line number first next again abandoned events reopened kept)
    (hnext : number + 1 = next) :
    (∀ n ∈ readers events, n + 1 = next + (attempts events).length) ∧
      ∀ n, kept = some n → n + 1 = next + (attempts events).length := by
  cases h with
  | unopened =>
    constructor
    · intro n hn
      cases hn
    · intro n hn
      cases hn
  | once hfirst h taken received =>
    constructor
    · intro n hn
      have hn : n = number := eq_of_mem_readers_reading (by simpa using hn)
      simp [hn, hnext]
    · intro n hn
      cases hn
      simp [hnext]
  | stranded =>
    constructor
    · intro n hn
      simp at hn
    · intro n hn
      cases hn
  | twice hfirst h hagain taken retaken received =>
    constructor
    · intro n hn
      have hn : n = next := eq_of_mem_readers_reading (by simpa using hn)
      simp [hn]
    · intro n hn
      cases hn
      simp

end Course

variable {t : Transport}

/-- What is in the slot is what the last attempt to connect led to. -/
def Latest (t : Transport) : Prop := ∀ c, t.slot = some c → c.number + 1 = t.connects

theorem Latest.firstNumber (h : t.Latest) : t.firstNumber + 1 = t.nextNumber := by
  rw [Transport.firstNumber, nextNumber]
  cases hslot : t.slot with
  | some c =>
    rw [opens_of_some hslot]
    exact h c hslot
  | none =>
    rw [opens_of_none hslot]
    rfl

/-- A request and its retry, told by what happens during it. -/
structure RetriesOnce (t : Transport) (line : Bytes)
    (sent : Except Interrupt Response × Transport) (events : List Event) : Prop where
  log : sent.2.network.log = t.network.log ++ events
  /-- it connects before the first write if and only if the slot is empty -/
  opens : attempts (beforeLines events) = if t.slot.isNone then [t.connects] else []
  /-- it connects after that if and only if the first write fails because the peer is gone -/
  reopens : attempts (fromLines events) =
    if lines events ≠ [] ∧ t.breaksOn line then [t.nextNumber] else []
  connects : sent.2.connects ≤ t.connects + 2
  /-- it writes the same line at most twice, and not twice on one stream -/
  same : ∀ l ∈ lines events, l.2 = line
  twice : (lines events).length ≤ 2
  apart : ((lines events).map Prod.fst).Nodup
  /-- it reads from the stream of the last attempt to connect -/
  reads : ∀ n ∈ readers events, n + 1 = sent.2.connects
  /-- a reconnection counts when the line is written again, whatever comes then -/
  reconnects : sent.2.reconnects = t.reconnects + if (lines events).length = 2 then 1 else 0
  /-- unless it is given up, it writes if there is a stream, and again if the peer is gone and there
  is another stream -/
  finished : sent.1 ≠ .error .abandoned →
    (lines events ≠ [] ↔ t.firstStream?.isSome) ∧
      ((lines events).length = 2 ↔ t.breaksOn line ∧ t.nextStream?.isSome)

/-- The attempts of a request are all on record. -/
theorem connects_of_opens {t u : Transport} {events : List Event}
    (h : u.network.log = t.network.log ++ (t.opens ++ events)) :
    u.connects = t.nextNumber + (attempts events).length := by
  have hconnects := connects_of_log h
  rw [attempts_append, List.length_append, ← length_opens] at hconnects
  rw [connects, hconnects, nextNumber, connects, Nat.add_assoc]

theorem send_retriesOnce (h : t.Latest) (patience : Option Nat) (request : Request) :
    ∃ events, RetriesOnce t request.bytes (t.send patience request) events := by
  obtain ⟨events, reopened, kept, hcourse, hadds⟩ := t.send_course patience request
  have hnext := h.firstNumber
  -- A second line goes to a connection of another number.
  have hne : t.firstNumber ≠ t.nextNumber := by omega
  have hconnects := connects_of_opens hadds.log
  have hlines : lines (t.opens ++ events) = lines events := by
    rw [lines_append, lines_opens, List.nil_append]
  have hreopens := hcourse.attempts_eq
  obtain ⟨hbefore, hfrom⟩ := hcourse.parts t.lines_opens
  obtain ⟨hsame, htwice, hapart, hreopened⟩ := hcourse.writes hne
  refine ⟨t.opens ++ events, hadds.log, ?_, ?_, ?_, ?_, ?_, ?_, ?_, ?_, ?_⟩
  · rw [hbefore, attempts_opens]
  · rw [hfrom, hlines]
    exact hreopens
  · have hopens : t.opens.length ≤ 1 := by
      rw [opens]
      split <;> simp
    have hagain : (attempts events).length ≤ 1 := by
      rw [hreopens]
      split <;> simp
    rw [hconnects, nextNumber]
    omega
  · rw [hlines]
    exact hsame
  · rw [hlines]
    exact htwice
  · rw [hlines]
    exact hapart
  · rw [readers_append, readers_opens, List.nil_append, hconnects]
    exact (hcourse.last hnext).1
  · rw [hlines, hadds.reconnects, hreopened]
  · rw [hlines]
    exact hcourse.finished

theorem send_latest (h : t.Latest) (patience : Option Nat) (request : Request) :
    (t.send patience request).2.Latest := by
  obtain ⟨events, reopened, kept, hcourse, hadds⟩ := t.send_course patience request
  intro c hc
  rw [connects_of_opens hadds.log]
  exact (hcourse.last h.firstNumber).2 c.number (hadds.kept c hc)

/-- To connect counts no reconnection. -/
theorem connect_reconnects (t : Transport) : t.connect.2.reconnects = t.reconnects := by
  rw [connect]
  cases t.slot with
  | some c => rfl
  | none =>
    rcases t.openChannel_stream (.start none) with ⟨stop, hopen, _⟩ | ⟨stream, clock, hopen, _⟩
    · rw [hopen]
      rfl
    · rw [hopen]
      rfl

theorem connect_latest (h : t.Latest) : t.connect.2.Latest := by
  intro c hc
  rw [connect] at hc ⊢
  cases hslot : t.slot with
  | some d =>
    rw [hslot] at hc
    exact h c hc
  | none =>
    rw [hslot] at hc
    rcases t.openChannel_stream (.start none) with ⟨stop, hopen, _⟩ | ⟨stream, clock, hopen, _⟩
    · rw [hopen] at hc ⊢
      exact absurd (hslot.symm.trans hc) (by simp)
    · rw [hopen] at hc ⊢
      cases hc
      exact t.connects_afterAttempt.symm

end Transport

namespace History

theorem latest_step {h : History} (hl : h.transport.Latest) (operation : Operation) :
    (h.step operation).transport.Latest := by
  cases operation with
  | send patience request => exact Transport.send_latest hl patience request
  | call patience c =>
    exact Transport.send_latest (t := { h.transport with requests := h.transport.requests + 1 })
      hl patience _
  | connect => exact Transport.connect_latest hl
  | close =>
    intro c hc
    cases hc

theorem latest_run {h : History} (hl : h.transport.Latest) (operations : List Operation) :
    (h.run operations).transport.Latest := by
  induction operations generalizing h with
  | nil => exact hl
  | cons operation operations ih => exact ih (latest_step hl operation)

/-- After every run, a request connects first if and only if the slot is empty, and once more if and
only if its first write fails because the peer is gone. It writes one line, at most twice and on two
streams, and reads from the last one. Whether it is retried depends on the first write alone, not on
what comes after it, and a retry is what counts as a reconnection; nothing else does. -/
theorem retried_once (endpoint : String) (timeout : Nat) (openings : List Opening)
    (refusal : IoFailure) (operations : List Operation) :
    let t := ((start endpoint timeout openings refusal).run operations).transport
    (∀ patience request, ∃ events,
        Transport.RetriesOnce t request.bytes (t.send patience request) events) ∧
      (∀ patience c, ∃ events,
        Transport.RetriesOnce t (Request.bytes ⟨requestToken t.requests, c.1, c.2⟩)
          (t.call patience c) events) ∧
      t.connect.2.reconnects = t.reconnects ∧ t.close.reconnects = t.reconnects := by
  intro t
  have hstart : (start endpoint timeout openings refusal).transport.Latest := by
    intro c hc
    cases hc
  have hl : t.Latest := latest_run hstart operations
  refine ⟨Transport.send_retriesOnce hl, ?_, t.connect_reconnects, rfl⟩
  intro patience c
  have hcounting : Transport.Latest { t with requests := t.requests + 1 } := hl
  obtain ⟨events, hevents⟩ := Transport.send_retriesOnce hcounting patience
    ⟨requestToken t.requests, c.1, c.2⟩
  exact ⟨events, { hevents with }⟩

end History

end SiteAtlas
