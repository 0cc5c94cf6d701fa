import SiteAtlas.Proofs.Channel.Attempts
import SiteAtlas.Proofs.Channel.Ledger

/-!
# Each phase of a request keeps the book

The phases run while the slot is empty. A phase that fails leaves the book as it is; only a whole
response adds an entry, and only then is the connection handed back.
-/
namespace SiteAtlas

open Utf8 (Bytes)
open Channel

/-- The two ways in which an operation ends, with what holds then. -/
inductive Ends {ε α : Type} (good : α → Transport → Prop) (bad : Transport → Prop) :
    Except ε α × Transport → Prop where
  | ok {a : α} {t : Transport} (h : good a t) : Ends good bad (.ok a, t)
  | error {stop : ε} {t : Transport} (h : bad t) : Ends good bad (.error stop, t)

theorem Ends.cases {ε α : Type} {good : α → Transport → Prop} {bad : Transport → Prop}
    {result : Except ε α × Transport} (h : Ends good bad result) :
    (∃ a t, result = (.ok a, t) ∧ good a t) ∨ ∃ stop t, result = (.error stop, t) ∧ bad t := by
  cases h with
  | ok h => exact .inl ⟨_, _, rfl, h⟩
  | error h => exact .inr ⟨_, _, rfl, h⟩

/-- Why an attempt to connect gives no connection, given the opening that it meets. -/
inductive OpenStop (opening : Opening) (endpoint : String) (timeout : Nat)
    (patience : Option Nat) : Interrupt → Prop
  | late (h : opening.Late timeout) :
      OpenStop opening endpoint timeout patience (.failed (.connectTimeout endpoint timeout))
  | refused {why : IoFailure} (h : opening.Refuses timeout why) :
      OpenStop opening endpoint timeout patience (.failed (.connect endpoint why))
  | abandoned (h : patience ≠ none) : OpenStop opening endpoint timeout patience .abandoned

def SendStop.Of (patience : Option Nat) (reply : Reply) : SendStop → Prop
  | .failed why => reply = .failed why
  | .late => reply = .hangs
  | .abandoned => reply = .hangs ∧ patience ≠ none

namespace Transport

/-- An attempt to connect fails because of the opening that it meets, or is abandoned, or gives the
stream of that opening with the next number and nothing read. -/
theorem openChannel_cases (t : Transport) (clock : Clock) :
    (∃ stop, t.openChannel clock =
          (.error stop, { t with network := t.network.connect.2.2 }) ∧
        OpenStop t.network.connect.2.1 t.endpoint t.timeout clock.patience stop) ∨
      ∃ stream clock', t.openChannel clock =
          (.ok (⟨t.connects, stream, []⟩, clock'),
            { t with network := t.network.connect.2.2 }) ∧
        t.network.connect.2.1.streamWithin t.timeout = some stream ∧
        clock'.patience = clock.patience := by
  have hnumber : t.network.connect.1 = t.connects := number_connect t.network
  rw [openChannel, ← hnumber]
  obtain ⟨number, opening, network⟩ := t.network.connect
  rcases opening.await_cases clock t.timeout with
    ⟨hwait, hlate⟩ | ⟨hwait, hpatience⟩ | ⟨hwait, hdecided, hdelay⟩
  · simp only [hwait]
    exact .inl ⟨_, rfl, .late hlate⟩
  · simp only [hwait]
    exact .inl ⟨_, rfl, .abandoned hpatience⟩
  · simp only [hwait]
    cases hacceptance : opening.acceptance with
    | hang => exact absurd hacceptance hdecided
    | accepted stream =>
      have hstream : opening.streamWithin t.timeout = some stream := by
        rw [Opening.streamWithin, hacceptance]
        exact if_pos hdelay
      exact .inr ⟨stream, _, rfl, hstream, rfl⟩
    | refused why => exact .inl ⟨_, rfl, .refused ⟨hacceptance, hdelay⟩⟩

def sentOn (network : Network) (c : Connection) (line : Bytes) : Network :=
  network.record (.sending c.number line :: (c.stream.send line).2.1.map (.wrote c.number))

/-- Writing fails as the stream took the line, or the stream took the whole line. -/
theorem write_cases (t : Transport) (clock : Clock) (c : Connection) (line : Bytes) :
    (∃ stop, t.write clock c line = (.error stop, { t with network := sentOn t.network c line }) ∧
        stop.Of clock.patience (c.stream.send line).1) ∨
      (c.stream.send line).1 = .done ∧
        t.write clock c line = (.ok { c with stream := (c.stream.send line).2.2 },
          { t with network := sentOn t.network c line }) := by
  rw [write, sentOn]
  obtain ⟨reply, taken, stream⟩ := c.stream.send line
  cases reply with
  | done => exact .inr ⟨rfl, rfl⟩
  | failed why => exact .inl ⟨.failed why, rfl, rfl⟩
  | hangs =>
    cases hwait : clock.await (clock.now + t.timeout) none with
    | abandoned =>
      simp only [hwait]
      exact .inl ⟨.abandoned, rfl, rfl, Clock.patience_of_await_abandoned hwait⟩
    | late | ready =>
      simp only [hwait]
      exact .inl ⟨.late, rfl, rfl⟩

/-- Reading fails, or a frame came that is a response. -/
theorem receive_cases (t : Transport) (clock : Clock) (method : Method) (c : Connection) :
    ∃ result, result = readFrame (clock.now + t.timeout) clock c.buffer c.stream.reads ∧
      ((∃ stop, t.receive clock method c = (.error stop,
          { t with network := t.network.record (result.received.map (.read c.number)) })) ∨
        ∃ frame buffer reads response, result.frame = .ok (frame, buffer, reads) ∧
          Response.ofLine frame = .ok response ∧
          t.receive clock method c =
            (.ok (response,
              { c with stream := { c.stream with reads := reads }, buffer := buffer }),
              { t with network := t.network.record (result.received.map (.read c.number)) })) := by
  refine ⟨_, rfl, ?_⟩
  rw [receive]
  obtain ⟨outcome, received⟩ := readFrame (clock.now + t.timeout) clock c.buffer c.stream.reads
  cases outcome with
  | error why => cases why <;> exact .inl ⟨_, rfl⟩
  | ok read =>
    obtain ⟨frame, buffer, reads⟩ := read
    cases hresponse : Response.ofLine frame with
    | error why => simp only [hresponse]; exact .inl ⟨_, rfl⟩
    | ok response =>
      simp only [hresponse]
      exact .inr ⟨frame, buffer, reads, response, rfl, hresponse, rfl⟩

/-- A request is under way: the slot is empty, and the book agrees with the network. -/
structure InFlight (openings : List Opening) (book : Book) (t : Transport) : Prop where
  accounted : Accounted openings book t.network
  empty : t.slot = none

variable {openings : List Opening} {book : Book} {t : Transport}

theorem openChannel_ends (h : InFlight openings book t) (clock : Clock) :
    Ends (fun p u => InFlight openings book u ∧ Current openings book u.network [] p.1)
      (InFlight openings book) (t.openChannel clock) := by
  have hopen : InFlight openings book { t with network := t.network.connect.2.2 } :=
    ⟨h.accounted.connect, h.empty⟩
  rcases t.openChannel_cases clock with ⟨stop, ht, _⟩ | ⟨stream, clock', ht, hstream, _⟩
  · rw [ht]
    exact .error hopen
  · rw [ht]
    exact .ok ⟨hopen, Current.connect h.accounted (Opening.eq_of_streamWithin hstream)⟩

theorem write_ends (h : InFlight openings book t) (clock : Clock) {c : Connection}
    (hc : Current openings book t.network [] c) (line : Bytes) :
    Ends (fun c u => InFlight openings book u ∧ Current openings book u.network line c)
      (InFlight openings book) (t.write clock c line) := by
  obtain ⟨_, hall, hreads⟩ := taken_send c.stream line
  have hwrite : InFlight openings book { t with network := sentOn t.network c line } :=
    ⟨h.accounted.sending hc.opened line _, h.empty⟩
  rcases t.write_cases clock c line with ⟨stop, ht, _⟩ | ⟨hdone, ht⟩
  · rw [ht]
    exact .error hwrite
  · have hpending := hc.sending line (c.stream.send line).2.1 hreads
    rw [List.nil_append, hall hdone] at hpending
    rw [ht]
    exact .ok ⟨hwrite, hpending⟩

theorem writeOrReopen_ends (h : InFlight openings book t) (clock : Clock) (method : Method)
    {c : Connection} (hc : Current openings book t.network [] c) (line : Bytes) :
    Ends (fun p u => InFlight openings book u ∧ Current openings book u.network line p.1)
      (InFlight openings book) (t.writeOrReopen clock method c line) := by
  rw [writeOrReopen]
  rcases (write_ends h clock hc line).cases with ⟨c₁, t₁, hw, h₁⟩ | ⟨stop, t₁, hw, h₁⟩
  · rw [hw]
    exact .ok h₁
  · rw [hw]
    cases stop with
    | late | abandoned => exact .error h₁
    | failed why =>
      by_cases hbroken : why.isBroken
      · simp only [hbroken, not_true_eq_false, if_false]
        rcases (openChannel_ends h₁ clock).cases with ⟨p, t₂, ho, h₂, hc₂⟩ | ⟨stop, t₂, ho, h₂⟩
        · rw [ho]
          have h₂' : InFlight openings book { t₂ with reconnects := t₂.reconnects + 1 } :=
            ⟨h₂.accounted, h₂.empty⟩
          rcases (write_ends h₂' p.2 hc₂ line).cases with ⟨c₃, t₃, hw, h₃⟩ | ⟨stop, t₃, hw, h₃⟩
          · simp only [hw]
            exact .ok h₃
          · simp only [hw]
            cases stop <;> exact .error h₃
        · rw [ho]
          exact .error h₂
      · simp only [hbroken, Bool.false_eq_true, not_false_eq_true, if_true]
        exact .error h₁

/-- A response is entered for the connection that it was read from. -/
theorem receive_ends {request : Request} (h : InFlight openings book t) (clock : Clock)
    (method : Method) {c : Connection} (hc : Current openings book t.network request.bytes c) :
    Ends (fun p u => ∃ e : Answered, e.request = request ∧ e.response = p.1 ∧
        InFlight openings (book.enter p.2.number e) u ∧
        Current openings (book.enter p.2.number e) u.network [] p.2)
      (InFlight openings book) (t.receive clock method c) := by
  have hoffered (received : List Bytes) (hr : received.flatten <+: offered c.stream.reads) :
      deliveredOn c.number t.network.log ++ received.flatten <+: offeredOn openings c.number := by
    rw [hc.unread]
    exact (List.prefix_append_right_inj _).2 hr
  obtain ⟨result, hresult, hcases⟩ := t.receive_cases clock method c
  have hfront : result.received.flatten <+: offered c.stream.reads := by
    rw [hresult]
    exact received_readFrame ..
  have hread := h.accounted.received hc.opened (hoffered _ hfront)
  rcases hcases with ⟨stop, ht⟩ | ⟨frame, buffer, reads, response, hframe, hresponse, ht⟩
  · rw [ht]
    exact .error ⟨hread, h.empty⟩
  · have hok := hframe
    rw [hresult] at hok
    obtain ⟨hwhole, hbytes, hleft⟩ := readFrame_eq_ok hok
    rw [← hresult] at hbytes hleft
    rw [ht]
    let e : Answered := ⟨request, frame, response, hwhole, hresponse⟩
    have hcurrent := Current.answered (e := e) hc hbytes hleft
    refine .ok ⟨e, rfl, rfl, ⟨hread.enter ?_ ?_, h.empty⟩, hcurrent⟩
    · have hw := hcurrent.written
      rw [Book.enter_self, List.append_nil] at hw
      exact hw ▸ List.prefix_refl _
    · have hd := hcurrent.delivered
      rw [Book.enter_self] at hd
      exact hd ▸ List.prefix_append _ _

theorem useOrOpen_ends (h : InFlight openings book t) (clock : Clock)
    {channel : Option Connection}
    (hchannel : ∀ c, channel = some c → Current openings book t.network [] c) :
    Ends (fun p u => InFlight openings book u ∧ Current openings book u.network [] p.1)
      (InFlight openings book) (t.useOrOpen clock channel) := by
  cases channel with
  | none => exact openChannel_ends h clock
  | some c => exact .ok ⟨h, hchannel c rfl⟩

theorem roundTrip_ends (h : InFlight openings book t) (clock : Clock)
    {channel : Option Connection}
    (hchannel : ∀ c, channel = some c → Current openings book t.network [] c)
    (request : Request) :
    Ends (fun p u => ∃ e : Answered, e.request = request ∧ e.response = p.1 ∧
        InFlight openings (book.enter p.2.number e) u ∧
        Current openings (book.enter p.2.number e) u.network [] p.2)
      (InFlight openings book) (t.roundTrip clock channel request) := by
  rw [roundTrip]
  rcases (useOrOpen_ends h clock hchannel).cases with ⟨p, t₁, ho, h₁, hc₁⟩ | ⟨stop, t₁, ho, h₁⟩
  · simp only [ho]
    have hwrite := writeOrReopen_ends h₁ p.2 request.method hc₁ request.bytes
    rcases hwrite.cases with ⟨q, t₂, hw, h₂, hc₂⟩ | ⟨stop, t₂, hw, h₂⟩
    · simp only [hw]
      exact receive_ends h₂ q.2 request.method hc₂
    · simp only [hw]
      exact .error h₂
  · simp only [ho]
    exact .error h₁

/-- Between operations a connection in the slot is current, with nothing pending. -/
structure Ready (openings : List Opening) (book : Book) (t : Transport) : Prop where
  accounted : Accounted openings book t.network
  current : ∀ c, t.slot = some c → Current openings book t.network [] c

theorem InFlight.ready (h : InFlight openings book t) : Ready openings book t where
  accounted := h.accounted
  current c hc := by
    rw [h.empty] at hc
    cases hc

/-- How many requests were made does not matter. -/
theorem Ready.counting (h : Ready openings book t) (requests : Nat) :
    Ready openings book { t with requests := requests } where
  accounted := h.accounted
  current := h.current

/-- A request is answered over a connection that is kept then, or the slot is left empty. -/
theorem send_ends (h : Ready openings book t) (patience : Option Nat) (request : Request) :
    Ends (fun response u => ∃ (c : Connection) (e : Answered), u.slot = some c ∧
        e.request = request ∧ e.response = response ∧ Ready openings (book.enter c.number e) u)
      (fun u => u.slot = none ∧ Ready openings book u) (t.send patience request) := by
  have hstart : InFlight openings book { t with slot := none } := ⟨h.accounted, rfl⟩
  rw [send]
  rcases (roundTrip_ends hstart (.start patience) h.current request).cases with
    ⟨p, u, hr, e, hrequest, hresponse, hu, hc⟩ | ⟨stop, u, hr, hu⟩
  · simp only [hr]
    refine .ok ⟨p.2, e, rfl, hrequest, hresponse, hu.accounted, ?_⟩
    intro c hslot
    cases hslot
    exact hc
  · simp only [hr]
    exact .error ⟨hu.empty, hu.ready⟩

theorem connect_ends (h : Ready openings book t) :
    Ends (fun _ u => u.slot.isSome ∧ Ready openings book u)
      (fun u => u.slot = none ∧ Ready openings book u) t.connect := by
  rw [connect]
  cases hslot : t.slot with
  | some c =>
    refine .ok ⟨?_, h⟩
    rw [hslot]
    rfl
  | none =>
    rcases (openChannel_ends ⟨h.accounted, hslot⟩ (.start none)).cases with
      ⟨p, u, ho, hu, hc⟩ | ⟨stop, u, ho, hu⟩
    · simp only [ho]
      refine .ok ⟨rfl, hu.accounted, ?_⟩
      intro c hslot
      cases hslot
      exact hc
    · simp only [ho]
      exact .error ⟨hu.empty, hu.ready⟩

theorem Ready.close (h : Ready openings book t) : Ready openings book t.close :=
  InFlight.ready ⟨h.accounted, rfl⟩

end Transport

end SiteAtlas
