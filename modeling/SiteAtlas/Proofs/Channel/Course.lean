import SiteAtlas.Proofs.Channel.TearDown

/-!
# The course of a request

What the phases of a request add to the log and to the count of reconnections, one after the other.
The streams and openings ahead decide which of four courses it takes.
-/
namespace SiteAtlas

open Utf8 (Bytes)
open Channel

def SendStop.isBroken : SendStop → Bool
  | .failed why => why.isBroken
  | .late | .abandoned => false

namespace Transport

def opens (t : Transport) : List Event := if t.slot.isNone then [.connecting t.connects] else []

/-- The number of the connection that a request is first written on. -/
def firstNumber (t : Transport) : Nat :=
  match t.slot with
  | some c => c.number
  | none => t.connects

def nextNumber (t : Transport) : Nat := t.connects + t.opens.length

/-- The stream that a request is first written on, if there is one in time. -/
def firstStream? (t : Transport) : Option Stream :=
  match t.slot with
  | some c => some c.stream
  | none => t.network.streamAfter 0 t.timeout

def nextStream? (t : Transport) : Option Stream :=
  t.network.streamAfter t.opens.length t.timeout

/-- The first write of a line fails because the peer is gone. -/
def breaksOn (t : Transport) (line : Bytes) : Bool := t.firstStream?.any (·.breaksOn line)

theorem opens_of_some {t : Transport} {c : Connection} (h : t.slot = some c) : t.opens = [] := by
  rw [opens, h]
  rfl

theorem opens_of_none {t : Transport} (h : t.slot = none) :
    t.opens = [.connecting t.connects] := by
  rw [opens, h]
  rfl

theorem lines_opens (t : Transport) : lines t.opens = [] := by
  cases h : t.slot with
  | some c => rw [opens_of_some h, lines_nil]
  | none => rw [opens_of_none h, lines_connecting, lines_nil]

theorem readers_opens (t : Transport) : readers t.opens = [] := by
  cases h : t.slot with
  | some c => rw [opens_of_some h, readers_nil]
  | none => rw [opens_of_none h, readers_connecting, readers_nil]

theorem attempts_opens (t : Transport) :
    attempts t.opens = if t.slot.isNone then [t.connects] else [] := by
  rw [opens]
  split <;> rfl

theorem length_opens (t : Transport) : t.opens.length = (attempts t.opens).length := by
  rw [opens]
  split <;> rfl

def afterAttempt (t : Transport) : Transport := { t with network := t.network.connect.2.2 }

def reconnected (t : Transport) : Transport := { t with reconnects := t.reconnects + 1 }

/-- A line was about to be written on a connection, and its stream took what it took. -/
def afterLine (t : Transport) (c : Connection) (line : Bytes) : Transport :=
  { t with network := sentOn t.network c line }

def afterReading (t : Transport) (number : Nat) (received : List Bytes) : Transport :=
  { t with network := t.network.record (reading number received) }

variable (t : Transport) (c : Connection) (line : Bytes) (number : Nat) (received : List Bytes)

@[simp] theorem log_afterAttempt :
    t.afterAttempt.network.log = t.network.log ++ [.connecting t.connects] :=
  log_connect t.network

@[simp] theorem connects_afterAttempt : t.afterAttempt.connects = t.connects + 1 :=
  connects_connect t.network

@[simp] theorem streamAfter_afterAttempt (others : Nat) :
    t.afterAttempt.network.streamAfter others t.timeout =
      t.network.streamAfter (others + 1) t.timeout :=
  streamAfter_connect t.network others t.timeout

@[simp] theorem log_reconnected : t.reconnected.network.log = t.network.log := rfl

@[simp] theorem log_afterLine :
    (t.afterLine c line).network.log =
      t.network.log ++ writing c.number line (c.stream.send line).2.1 := rfl

@[simp] theorem connects_afterLine : (t.afterLine c line).connects = t.connects :=
  connects_record_sending ..

@[simp] theorem log_afterReading :
    (t.afterReading number received).network.log = t.network.log ++ reading number received := rfl

theorem afterReading_nil : t.afterReading number [] = t := by
  rw [afterReading, Network.record, reading, List.map_nil, List.append_nil]

/-- An operation leaves this transport behind, and the connection that it gives, if it gives one,
has this number. -/
inductive Leaves {ε α : Type} (u : Transport) (number : Nat) (connection : α → Connection) :
    Except ε α × Transport → Prop
  | ok {a : α} (h : (connection a).number = number) : Leaves u number connection (.ok a, u)
  | error {stop : ε} : Leaves u number connection (.error stop, u)

variable {t c line}

/-- An attempt to connect gives the stream ahead, or fails because there is none, or is
abandoned. -/
theorem openChannel_stream (t : Transport) (clock : Clock) :
    (∃ stop, t.openChannel clock = (.error stop, t.afterAttempt) ∧
        (stop = .abandoned ∨ t.network.streamAfter 0 t.timeout = none)) ∨
      ∃ stream clock', t.openChannel clock =
          (.ok (⟨t.connects, stream, []⟩, clock'), t.afterAttempt) ∧
        t.network.streamAfter 0 t.timeout = some stream := by
  rw [streamAfter_zero]
  rcases t.openChannel_cases clock with ⟨stop, hopen, hstop⟩ | ⟨stream, clock', hopen, hstream, _⟩
  · refine .inl ⟨stop, hopen, ?_⟩
    cases hstop with
    | late h => exact .inr h.streamWithin_eq_none
    | refused h => exact .inr h.streamWithin_eq_none
    | abandoned => exact .inl rfl
  · exact .inr ⟨stream, clock', hopen, hstream⟩

/-- A line is written, or it is not; only the loss of the peer breaks the stream. -/
theorem write_outcome (t : Transport) (clock : Clock) (c : Connection) (line : Bytes) :
    (∃ stop, t.write clock c line = (.error stop, t.afterLine c line) ∧
        stop.isBroken = c.stream.breaksOn line) ∨
      ∃ d, t.write clock c line = (.ok d, t.afterLine c line) ∧
        d.number = c.number ∧ c.stream.breaksOn line = false := by
  rw [Stream.breaksOn]
  rcases t.write_cases clock c line with ⟨stop, hwrite, hstop⟩ | ⟨hdone, hwrite⟩
  · refine .inl ⟨stop, hwrite, ?_⟩
    cases stop with
    | failed why =>
      rw [show (c.stream.send line).1 = .failed why from hstop]
      rfl
    | late =>
      rw [show (c.stream.send line).1 = .hangs from hstop]
      rfl
    | abandoned =>
      rw [hstop.1]
      rfl
  · refine .inr ⟨_, hwrite, rfl, ?_⟩
    rw [hdone]

theorem receive_leaves (t : Transport) (clock : Clock) (method : Method) (c : Connection) :
    ∃ received,
      Leaves (t.afterReading c.number received) c.number Prod.snd (t.receive clock method c) := by
  obtain ⟨result, _, ⟨stop, ht⟩ | ⟨frame, buffer, reads, response, _, _, ht⟩⟩ :=
    t.receive_cases clock method c
  · refine ⟨result.received, ?_⟩
    rw [ht]
    exact .error
  · refine ⟨result.received, ?_⟩
    rw [ht]
    exact .ok rfl

/-- A line that is not lost with the peer is not written again. -/
theorem writeOrReopen_of_not_breaksOn (clock : Clock) (method : Method)
    (h : c.stream.breaksOn line = false) :
    Leaves (t.afterLine c line) c.number Prod.fst (t.writeOrReopen clock method c line) := by
  rw [writeOrReopen]
  rcases t.write_outcome clock c line with ⟨stop, hwrite, hstop⟩ | ⟨d, hwrite, hnumber, _⟩
  · rw [hwrite]
    cases stop with
    | late | abandoned => exact .error
    | failed why =>
      have hwhy : why.isBroken = false := hstop.trans h
      simp only [hwhy, Bool.false_eq_true, not_false_eq_true, if_true]
      exact .error
  · rw [hwrite]
    exact .ok hnumber

/-- A line that is lost with the peer is written again if there is another stream. -/
theorem writeOrReopen_of_breaksOn (clock : Clock) (method : Method)
    (h : c.stream.breaksOn line = true) :
    let lost := (t.afterLine c line).afterAttempt
    (∃ stop, t.writeOrReopen clock method c line = (.error stop, lost) ∧
        (stop = .abandoned ∨ t.network.streamAfter 0 t.timeout = none)) ∨
      ∃ stream, t.network.streamAfter 0 t.timeout = some stream ∧
        Leaves (lost.reconnected.afterLine ⟨t.connects, stream, []⟩ line)
          t.connects Prod.fst (t.writeOrReopen clock method c line) := by
  intro lost
  rw [writeOrReopen]
  rcases t.write_outcome clock c line with ⟨stop, hwrite, hstop⟩ | ⟨d, hwrite, _, hkept⟩
  · cases stop with
    | late | abandoned => cases hstop.trans h
    | failed why =>
      have hwhy : why.isBroken = true := hstop.trans h
      simp only [hwrite, hwhy, not_true_eq_false, if_false]
      rcases (t.afterLine c line).openChannel_stream clock with
        ⟨stop, hopen, hstop⟩ | ⟨stream, clock', hopen, hstream⟩
      · rw [hopen]
        exact .inl ⟨stop, rfl, hstop⟩
      · -- The reconnection is counted now, whatever becomes of the second write.
        refine .inr ⟨stream, hstream, ?_⟩
        rw [hopen, connects_afterLine]
        dsimp only
        rw [← reconnected]
        rcases lost.reconnected.write_outcome clock' ⟨t.connects, stream, []⟩ line with
          ⟨stop, hagain, _⟩ | ⟨d, hagain, hd, _⟩
        · rw [hagain]
          cases stop with
          | late | abandoned | failed => exact .error
        · rw [hagain]
          exact .ok hd
  · rw [h] at hkept
    cases hkept

/-- When a line is not written, a request is over. -/
theorem roundTrip_of_unwritten {u : Transport} {clock : Clock} {request : Request}
    {stop : Interrupt}
    (h : t.writeOrReopen clock request.method c request.bytes = (.error stop, u)) :
    t.roundTrip clock (some c) request = (.error stop, u) := by
  rw [roundTrip, useOrOpen]
  simp only [h]

/-- After a line is written, a request goes on reading on that connection, if it goes on. -/
theorem roundTrip_of_written {u : Transport} {clock : Clock} {request : Request} {number : Nat}
    (h : Leaves u number Prod.fst (t.writeOrReopen clock request.method c request.bytes)) :
    ∃ received,
      Leaves (u.afterReading number received) number Prod.snd
        (t.roundTrip clock (some c) request) := by
  rw [roundTrip, useOrOpen]
  dsimp only
  generalize t.writeOrReopen clock request.method c request.bytes = result at h ⊢
  cases h with
  | @ok p h =>
    obtain ⟨received, hleft⟩ := u.receive_leaves p.2 request.method p.1
    rw [h] at hleft
    exact ⟨received, hleft⟩
  | error =>
    refine ⟨[], ?_⟩
    rw [afterReading_nil]
    exact .error

/-- What a request does after its attempt to connect, if it makes one: the events, how often it
reconnects, and the connection that it may keep. It depends on the first stream, if there is one,
and on the stream that the next attempt to connect gives, if there is one. -/
inductive Course (line : Bytes) (number : Nat) (first : Option Stream) (next : Nat)
    (again : Option Stream) (abandoned : Prop) : List Event → Nat → Option Nat → Prop
  /-- there is no stream to write on -/
  | unopened (h : abandoned ∨ first = none) :
      Course line number first next again abandoned [] 0 none
  /-- the peer is not gone when the line is written, whatever comes then -/
  | once {stream : Stream} (hfirst : first = some stream) (h : stream.breaksOn line = false)
      (taken received : List Bytes) :
      Course line number first next again abandoned
        (writing number line taken ++ reading number received) 0 (some number)
  /-- the peer is gone, and there is no other stream to write on -/
  | stranded {stream : Stream} (hfirst : first = some stream) (h : stream.breaksOn line = true)
      (hagain : abandoned ∨ again = none) (taken : List Bytes) :
      Course line number first next again abandoned
        (writing number line taken ++ [.connecting next]) 0 none
  /-- the peer is gone, and the line is written on another stream, whatever comes then -/
  | twice {stream : Stream} (hfirst : first = some stream) (h : stream.breaksOn line = true)
      (hagain : again.isSome) (taken retaken received : List Bytes) :
      Course line number first next again abandoned
        (writing number line taken ++
          .connecting next :: (writing next line retaken ++ reading next received))
        1 (some next)

/-- What an operation adds to the log and to the count of reconnections, and the connection that it
may leave in the slot. -/
structure Adds (t u : Transport) (events : List Event) (reopened : Nat) (kept : Option Nat) :
    Prop where
  log : u.network.log = t.network.log ++ events
  reconnects : u.reconnects = t.reconnects + reopened
  kept : ∀ c, u.slot = some c → kept = some c.number

theorem Adds.of_empty {u : Transport} {events : List Event} {reopened : Nat}
    (hlog : u.network.log = t.network.log ++ events)
    (hreconnects : u.reconnects = t.reconnects + reopened) (hslot : u.slot = none) :
    Adds t u events reopened none where
  log := hlog
  reconnects := hreconnects
  kept c hc := by
    rw [hslot] at hc
    cases hc

/-- Only the connection of a response is left in the slot. -/
theorem Leaves.adds {u : Transport} {number : Nat} {events : List Event} {reopened : Nat}
    {result : Except Interrupt (Response × Connection) × Transport}
    (h : Leaves u number Prod.snd result) (hu : Adds t u events reopened none) :
    Adds t (keep result).2 events reopened (some number) := by
  cases h with
  | ok h =>
    refine ⟨hu.log, hu.reconnects, ?_⟩
    intro c hc
    cases hc
    rw [h]
  | error =>
    refine ⟨hu.log, hu.reconnects, ?_⟩
    intro c hc
    cases hu.kept c hc

/-- A request over a connection takes its course. -/
theorem roundTrip_course (hslot : t.slot = none) (clock : Clock) (c : Connection)
    (request : Request) :
    let result := keep (t.roundTrip clock (some c) request)
    ∃ events reopened kept,
      Course request.bytes c.number (some c.stream) t.connects (t.network.streamAfter 0 t.timeout)
        (result.1 = .error .abandoned) events reopened kept ∧
      Adds t result.2 events reopened kept := by
  intro result
  cases h : c.stream.breaksOn request.bytes with
  | false =>
    obtain ⟨received, hleft⟩ :=
      roundTrip_of_written (t.writeOrReopen_of_not_breaksOn clock request.method h)
    refine ⟨_, _, _, .once rfl h (c.stream.send request.bytes).2.1 received,
      hleft.adds (.of_empty ?_ rfl hslot)⟩
    rw [log_afterReading, log_afterLine, List.append_assoc]
  | true =>
    rcases t.writeOrReopen_of_breaksOn clock request.method h with
      ⟨stop, hstopped, hwhy⟩ | ⟨stream, hstream, hwritten⟩
    · have hresult : result = (.error stop, (t.afterLine c request.bytes).afterAttempt) := by
        simp only [result, roundTrip_of_unwritten hstopped, keep]
      rw [hresult]
      refine ⟨_, _, _, .stranded rfl h (hwhy.imp_left (congrArg Except.error))
        (c.stream.send request.bytes).2.1, .of_empty ?_ rfl hslot⟩
      rw [log_afterAttempt, log_afterLine, connects_afterLine, List.append_assoc]
    · obtain ⟨received, hleft⟩ := roundTrip_of_written hwritten
      have hagain : (t.network.streamAfter 0 t.timeout).isSome := by
        rw [hstream]
        rfl
      refine ⟨_, _, _, .twice rfl h hagain (c.stream.send request.bytes).2.1
        (stream.send request.bytes).2.1 received, hleft.adds (.of_empty ?_ rfl hslot)⟩
      rw [log_afterReading, log_afterLine, log_reconnected, log_afterAttempt, log_afterLine,
        connects_afterLine]
      simp only [List.append_assoc, List.cons_append, List.nil_append]

/-- A request takes its course after the attempt to connect, if it makes one. -/
theorem send_course (t : Transport) (patience : Option Nat) (request : Request) :
    let result := t.send patience request
    ∃ events reopened kept,
      Course request.bytes t.firstNumber t.firstStream? t.nextNumber t.nextStream?
        (result.1 = .error .abandoned) events reopened kept ∧
      Adds t result.2 (t.opens ++ events) reopened kept := by
  simp only [send_eq_keep]
  cases hslot : t.slot with
  | some c =>
    have hopens := opens_of_some hslot
    obtain ⟨events, reopened, kept, hcourse, hadds⟩ :=
      roundTrip_course (t := { t with slot := none }) rfl (.start patience) c request
    refine ⟨events, reopened, kept, ?_, ?_, hadds.reconnects, hadds.kept⟩
    · rw [firstNumber, firstStream?, nextNumber, nextStream?, hopens, hslot]
      exact hcourse
    · rw [hopens]
      exact hadds.log
  | none =>
    have hopens := opens_of_none hslot
    have hempty : { t with slot := none } = t := by rw [← hslot]
    rw [hempty]
    rcases t.openChannel_stream (.start patience) with
      ⟨stop, hopen, hstop⟩ | ⟨stream, clock, hopen, hstream⟩
    · rw [roundTrip_of_stop hopen]
      refine ⟨[], 0, none, .unopened ?_, .of_empty ?_ rfl hslot⟩
      · rw [firstStream?, hslot]
        exact hstop.imp_left (congrArg Except.error)
      · rw [hopens, List.append_nil]
        exact t.log_afterAttempt
    · rw [roundTrip_of_open hopen]
      obtain ⟨events, reopened, kept, hcourse, hadds⟩ :=
        roundTrip_course (t := t.afterAttempt) hslot clock ⟨t.connects, stream, []⟩ request
      refine ⟨events, reopened, kept, ?_, ?_, hadds.reconnects, hadds.kept⟩
      · -- The stream ahead is used up, so the next attempt finds the one behind it.
        rw [connects_afterAttempt] at hcourse
        rw [firstNumber, firstStream?, nextNumber, nextStream?, hopens, hslot]
        dsimp only
        rw [hstream, List.length_singleton, ← streamAfter_afterAttempt]
        exact hcourse
      · rw [hadds.log, hopens, log_afterAttempt, List.append_assoc]

end Transport

end SiteAtlas
