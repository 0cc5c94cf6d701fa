import SiteAtlas.Proofs.Channel.History

/-!
# A channel is kept only when it is clean

After any failure the slot is empty, so that the next request starts on a new connection; what stays
in the slot has nothing written that is not answered, and nothing read that is not accounted for.
-/
namespace SiteAtlas

open Utf8 (Bytes)
open Channel

/-- What succeeds leaves a connection in the slot, and what fails leaves none. -/
def Tidy {ε α : Type} : Except ε α × Transport → Prop :=
  Ends (fun _ t => t.slot.isSome) (fun t => t.slot = none)

theorem Ends.tidy {ε α : Type} {good : α → Transport → Prop} {bad : Transport → Prop}
    {result : Except ε α × Transport} (h : Ends good bad result)
    (hgood : ∀ a t, good a t → t.slot.isSome) (hbad : ∀ t, bad t → t.slot = none) :
    Tidy result := by
  cases h with
  | ok h => exact .ok (hgood _ _ h)
  | error h => exact .error (hbad _ h)

namespace Transport

def keep : Except Interrupt (Response × Connection) × Transport →
    Except Interrupt Response × Transport
  | (.ok (response, c), t) => (.ok response, { t with slot := some c })
  | (.error stop, t) => (.error stop, t)

theorem send_eq_keep (t : Transport) (patience : Option Nat) (request : Request) :
    t.send patience request =
      keep ({ t with slot := none }.roundTrip (.start patience) t.slot request) := by
  rw [send]
  generalize { t with slot := none }.roundTrip (.start patience) t.slot request = result
  obtain ⟨outcome, u⟩ := result
  cases outcome <;> rfl

/-- A request starts on a connection of the next number, which has an empty buffer and the stream of
the next opening, and on which nothing was written or read; it fails if there is none. -/
def StartsAfresh (t : Transport) (patience : Option Nat) (request : Request) : Prop :=
  match t.openChannel (.start patience) with
  | (.error stop, u) => t.send patience request = (.error stop, u)
  | (.ok (c, clock), u) =>
    c.number = t.connects ∧ c.buffer = [] ∧
      (∃ delay, t.network.openings.head? = some ⟨delay, .accepted c.stream⟩) ∧
      writtenOn c.number u.network.log = [] ∧ deliveredOn c.number u.network.log = [] ∧
      t.send patience request = keep (u.roundTrip clock (some c) request)

/-- A connection is kept: whole requests were written on it, each was answered by one frame, and the
buffer holds what was read behind the last of them. -/
def Settled (t : Transport) (answered : List (Request × Response)) (c : Connection) : Prop :=
  ∃ frames : List Bytes,
    frames.map Response.ofLine = answered.map (fun a => .ok a.2) ∧
      (∀ frame ∈ frames, lineEnd ∉ frame) ∧
      writtenOn c.number t.network.log = answered.flatMap (·.1.bytes) ∧
      deliveredOn c.number t.network.log = joinLines frames ++ c.buffer

/-- Without a channel a request goes on over the one that is opened. -/
theorem roundTrip_of_open {t u : Transport} {clock clock' : Clock} {c : Connection}
    (h : t.openChannel clock = (.ok (c, clock'), u)) (request : Request) :
    t.roundTrip clock none request = u.roundTrip clock' (some c) request := by
  rw [roundTrip, roundTrip, useOrOpen, useOrOpen, h]

theorem roundTrip_of_stop {t u : Transport} {clock : Clock} {stop : Interrupt}
    (h : t.openChannel clock = (.error stop, u)) (request : Request) :
    t.roundTrip clock none request = (.error stop, u) := by
  rw [roundTrip, useOrOpen, h]

theorem connect_of_some {t : Transport} {c : Connection} (h : t.slot = some c) :
    t.connect = (.ok (), t) := by
  rw [connect, h]

theorem close_close (t : Transport) : t.close.slot = none ∧ t.close.close = t.close := ⟨rfl, rfl⟩

variable {openings : List Opening} {book : Book} {t : Transport}

theorem send_tidy (h : Ready openings book t) (patience : Option Nat) (request : Request) :
    Tidy (t.send patience request) := by
  apply (send_ends h patience request).tidy
  · rintro _ u ⟨c, _, hslot, _⟩
    rw [hslot]
    rfl
  · intro u hu
    exact hu.1

theorem connect_tidy (h : Ready openings book t) : Tidy t.connect := by
  apply (connect_ends h).tidy
  · intro _ u hu
    exact hu.1
  · intro u hu
    exact hu.1

theorem startsAfresh (h : Ready openings book t) (hslot : t.slot = none) (patience : Option Nat)
    (request : Request) : t.StartsAfresh patience request := by
  have hempty : { t with slot := none } = t := by rw [← hslot]
  have hsend : t.send patience request = keep (t.roundTrip (.start patience) none request) := by
    rw [send_eq_keep, hempty, hslot]
  rw [StartsAfresh, hsend]
  rcases t.openChannel_cases (.start patience) with
    ⟨stop, ht, _⟩ | ⟨stream, clock, ht, hstream, _⟩
  · rw [roundTrip_of_stop ht, ht]
    rfl
  · obtain ⟨hwritten, hdelivered⟩ := h.accounted.unused t.connects (Nat.le_refl _)
    have hw : writtenOn t.connects t.network.connect.2.2.log = [] := by
      rw [log_connect, writtenOn_append, hwritten]
      rfl
    have hd : deliveredOn t.connects t.network.connect.2.2.log = [] := by
      rw [log_connect, deliveredOn_append, hdelivered]
      rfl
    rw [roundTrip_of_open ht, ht]
    exact ⟨rfl, rfl, ⟨_, head?_openings (Opening.eq_of_streamWithin hstream)⟩, hw, hd, rfl⟩

end Transport

namespace History

variable {openings : List Opening} {book : Book} {h : History}

theorem Recorded.settled (hr : Recorded openings book h) {c : Connection}
    (hc : h.transport.slot = some c) : h.transport.Settled (h.answeredOn c.number) c := by
  have hcurrent := hr.ready.current c hc
  refine ⟨(book c.number).map Answered.frame, ?_, ?_, ?_, hcurrent.delivered⟩
  · rw [hr.entries, List.map_map, List.map_map]
    apply List.map_congr_left
    intro e _
    exact e.read
  · intro frame hframe
    obtain ⟨e, _, rfl⟩ := List.mem_map.1 hframe
    exact e.whole
  · rw [hr.entries, List.flatMap_map, hcurrent.written, List.append_nil]
    rfl

/-- After every run: a request that is answered leaves a connection in the slot, and one that fails,
for whatever reason or because its caller gave up, leaves none; so does an attempt to connect.
An open channel is not opened again, and closing twice is closing. A connection in the slot is
settled, and without one a request starts afresh. -/
theorem torn_down (endpoint : String) (timeout : Nat) (openings : List Opening)
    (refusal : IoFailure) (operations : List Operation) :
    let h := (start endpoint timeout openings refusal).run operations
    let t := h.transport
    (∀ patience request, Tidy (t.send patience request)) ∧
      (∀ patience c, Tidy (t.call patience c)) ∧
      Tidy t.connect ∧
      (∀ c, t.slot = some c → t.connect = (.ok (), t)) ∧
      (t.close.slot = none ∧ t.close.close = t.close) ∧
      (∀ c, t.slot = some c → t.Settled (h.answeredOn c.number) c) ∧
      (t.slot = none → ∀ patience request, t.StartsAfresh patience request) := by
  intro h t
  obtain ⟨book, hr⟩ := recorded_run (recorded_start endpoint timeout openings refusal) operations
  have hready : Transport.Ready openings book t := hr.ready
  refine ⟨?_, ?_, Transport.connect_tidy hready, ?_, t.close_close, ?_, ?_⟩
  · intro patience request
    exact Transport.send_tidy hready patience request
  · intro patience c
    exact Transport.send_tidy (hready.counting _) patience _
  · intro c hc
    exact Transport.connect_of_some hc
  · intro c hc
    exact hr.settled hc
  · intro hslot patience request
    exact Transport.startsAfresh hready hslot patience request

end History

end SiteAtlas
