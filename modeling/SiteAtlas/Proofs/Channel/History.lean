import SiteAtlas.Proofs.Channel.Bookkeeping

/-!
# Answers over whole runs

An operation holds the slot from its start to its end. A run is therefore the list of the operations
of all callers in the order in which they take the slot; a caller that gives up before has no part
in it. Whatever the streams do, the answers over one connection are the lines that it delivered, in
order.
-/
namespace SiteAtlas

open Utf8 (Bytes)
open Channel

/-- What a caller does with a channel: it sends a request of its own making, or a call that gets its
token here, and may give up at some time; or it opens or closes the channel. -/
inductive Operation where
  | send (patience : Option Nat) (request : Request)
  | call (patience : Option Nat) (c : Call)
  | connect
  | close

/-- What came of a request, and the number of the connection that was kept for the next one. -/
structure Sent where
  request : Request
  result : Except Interrupt Response
  kept : Option Nat

def Sent.answeredOn (number : Nat) (s : Sent) : Option (Request × Response) :=
  match s.result with
  | .ok response => if s.kept = some number then some (s.request, response) else none
  | .error _ => none

structure History where
  transport : Transport
  sends : List Sent

namespace History

/-- A channel that was never open, with the openings that attempts to connect will find. -/
def start (endpoint : String) (timeout : Nat) (openings : List Opening) (refusal : IoFailure) :
    History :=
  ⟨.ofNetwork endpoint timeout ⟨openings, refusal, []⟩, []⟩

def note (h : History) (request : Request) (result : Except Interrupt Response × Transport) :
    History :=
  ⟨result.2, h.sends ++ [⟨request, result.1, result.2.slot.map (·.number)⟩]⟩

def step (h : History) : Operation → History
  | .send patience request => h.note request (h.transport.send patience request)
  | .call patience c =>
    h.note ⟨requestToken h.transport.requests, c.1, c.2⟩ (h.transport.call patience c)
  | .connect => { h with transport := h.transport.connect.2 }
  | .close => { h with transport := h.transport.close }

def run (h : History) (operations : List Operation) : History := operations.foldl step h

def answeredOn (h : History) (number : Nat) : List (Request × Response) :=
  h.sends.filterMap (·.answeredOn number)

def log (h : History) : List Event := h.transport.network.log

/-- The book holds the requests that were answered, each under the connection kept after it. -/
structure Recorded (openings : List Opening) (book : Book) (h : History) : Prop where
  ready : Transport.Ready openings book h.transport
  entries : ∀ n, h.answeredOn n = (book n).map fun e => (e.request, e.response)
  kept : ∀ s ∈ h.sends, ∀ response, s.result = .ok response → ∃ n, s.kept = some n

variable {openings : List Opening} {book : Book} {h : History}

theorem recorded_start (endpoint : String) (timeout : Nat) (openings : List Opening)
    (refusal : IoFailure) :
    Recorded openings (fun _ => []) (start endpoint timeout openings refusal) where
  ready := ⟨Accounted.start openings refusal, fun _ hc => nomatch hc⟩
  entries _ := rfl
  kept _ hs := nomatch hs

/-- A request that fails is no entry. -/
theorem Recorded.failed (hr : Recorded openings book h) {t : Transport}
    (ht : Transport.Ready openings book t) (request : Request) (stop : Interrupt)
    (kept : Option Nat) :
    Recorded openings book ⟨t, h.sends ++ [⟨request, .error stop, kept⟩]⟩ := by
  refine ⟨ht, ?_, ?_⟩
  · intro n
    rw [answeredOn, List.filterMap_append, ← answeredOn, hr.entries n]
    exact List.append_nil _
  · intro s hs response hok
    rcases List.mem_append.1 hs with hs | hs
    · exact hr.kept s hs response hok
    · obtain rfl := List.mem_singleton.1 hs
      cases hok

/-- A request that is answered is an entry for the connection that is kept. -/
theorem Recorded.answered (hr : Recorded openings book h) {t : Transport} {number : Nat}
    {e : Answered} (ht : Transport.Ready openings (book.enter number e) t) :
    Recorded openings (book.enter number e)
      ⟨t, h.sends ++ [⟨e.request, .ok e.response, some number⟩]⟩ := by
  refine ⟨ht, ?_, ?_⟩
  · intro n
    rw [answeredOn, List.filterMap_append, ← answeredOn, hr.entries n]
    by_cases hn : n = number
    · subst hn
      rw [Book.enter_self, List.map_append]
      simp [Sent.answeredOn]
    · rw [Book.enter_of_ne book hn]
      have hne : number ≠ n := fun e => hn e.symm
      simp [Sent.answeredOn, hne]
  · intro s hs response hok
    rcases List.mem_append.1 hs with hs | hs
    · exact hr.kept s hs response hok
    · obtain rfl := List.mem_singleton.1 hs
      exact ⟨number, rfl⟩

/-- Sending a request leaves a history that some book records. -/
theorem Recorded.sent (hr : Recorded openings book h) {t : Transport}
    (ht : Transport.Ready openings book t) (patience : Option Nat) (request : Request) :
    ∃ book, Recorded openings book (h.note request (t.send patience request)) := by
  rcases (Transport.send_ends ht patience request).cases with
    ⟨response, u, hsend, c, e, hslot, hrequest, hresponse, hu⟩ | ⟨stop, u, hsend, _, hu⟩
  · subst hrequest hresponse
    rw [note, hsend, hslot]
    exact ⟨_, hr.answered hu⟩
  · rw [note, hsend]
    exact ⟨book, hr.failed hu request stop _⟩

/-- Every operation leaves a history that some book records. -/
theorem recorded_step (hr : Recorded openings book h) (operation : Operation) :
    ∃ book, Recorded openings book (h.step operation) := by
  cases operation with
  | send patience request => exact hr.sent hr.ready patience request
  | call patience c => exact hr.sent (hr.ready.counting _) patience ⟨_, c.1, c.2⟩
  | connect =>
    refine ⟨book, ?_, hr.entries, hr.kept⟩
    rcases (Transport.connect_ends hr.ready).cases with
      ⟨_, t, hconnect, _, ht⟩ | ⟨stop, t, hconnect, _, ht⟩
    · simp only [step, hconnect]
      exact ht
    · simp only [step, hconnect]
      exact ht
  | close => exact ⟨book, hr.ready.close, hr.entries, hr.kept⟩

/-- Every run leaves a history that some book records. -/
theorem recorded_run (hr : Recorded openings book h) (operations : List Operation) :
    ∃ book, Recorded openings book (h.run operations) := by
  induction operations generalizing h book with
  | nil => exact ⟨book, hr⟩
  | cons operation operations ih =>
    obtain ⟨book', hr'⟩ := recorded_step hr operation
    exact ih hr'

/-- A response comes from the line at the place of its request among all lines written. -/
theorem Recorded.exists_lines (hr : Recorded openings book h) {s : Sent} (hs : s ∈ h.sends)
    {response : Response} (hok : s.result = .ok response) :
    ∃ (n j : Nat) (answer : Bytes), s.kept = some n ∧
      (segments (writtenOn n h.log))[j]? = some s.request.bytes.dropLast ∧
      (segments (deliveredOn n h.log))[j]? = some answer ∧
      Response.ofLine answer = .ok response := by
  obtain ⟨n, hkept⟩ := hr.kept s hs response hok
  have hmem : (s.request, response) ∈ h.answeredOn n := by
    refine List.mem_filterMap.2 ⟨s, hs, ?_⟩
    rw [Sent.answeredOn, hok, hkept]
    exact if_pos rfl
  rw [hr.entries n] at hmem
  obtain ⟨e, he, hpair⟩ := List.mem_map.1 hmem
  obtain ⟨hrequest, hresponse⟩ := Prod.mk.inj hpair
  obtain ⟨j, hj, hget⟩ := List.getElem_of_mem he
  have hentry : (book n)[j]? = some e := by rw [List.getElem?_eq_getElem hj, hget]
  have hwritten := congrArg (·[j]?) (hr.ready.accounted.take_written n)
  have hdelivered := congrArg (·[j]?) (hr.ready.accounted.take_delivered n)
  simp only [List.getElem?_take_of_lt hj, List.getElem?_map, hentry, Option.map_some] at hwritten
  simp only [List.getElem?_take_of_lt hj, List.getElem?_map, hentry, Option.map_some] at hdelivered
  rw [hrequest] at hwritten
  exact ⟨n, j, e.frame, hkept, hwritten, hdelivered, hresponse ▸ e.read⟩

/-- The answers over a connection are what the first lines that it delivered are read as. -/
theorem Recorded.map_answeredOn (hr : Recorded openings book h) (n : Nat) :
    (h.answeredOn n).map (fun a => Except.ok a.2) =
      ((segments (deliveredOn n h.log)).take (h.answeredOn n).length).map Response.ofLine := by
  have htake := hr.ready.accounted.take_delivered n
  rw [hr.entries n, List.length_map, log, htake, List.map_map, List.map_map]
  apply List.map_congr_left
  intro e _
  exact e.read.symm

/-- No answer goes astray. In every run the answers over one connection are, in order, its first
lines; no byte of another stream comes in between. So, if the lines of a connection answer the
requests written on it, line by line, then every caller gets the answer to its own request. -/
theorem answers_in_order (endpoint : String) (timeout : Nat) (openings : List Opening)
    (refusal : IoFailure) (operations : List Operation) :
    let h := (start endpoint timeout openings refusal).run operations
    (∀ s ∈ h.sends, ∀ response, s.result = .ok response → ∃ n, s.kept = some n) ∧
      (∀ n, (h.answeredOn n).map (fun a => Except.ok a.2) =
        ((segments (deliveredOn n h.log)).take (h.answeredOn n).length).map Response.ofLine) ∧
      (∀ n, deliveredOn n h.log <+: offeredOn openings n) ∧
      ∀ Answers : Nat → Bytes → Bytes → Prop,
        (∀ (n j : Nat) (request answer : Bytes), (segments (writtenOn n h.log))[j]? = some request →
          (segments (deliveredOn n h.log))[j]? = some answer → Answers n request answer) →
        ∀ s ∈ h.sends, ∀ response, s.result = .ok response →
          ∃ n answer, s.kept = some n ∧ Answers n s.request.bytes.dropLast answer ∧
            Response.ofLine answer = .ok response := by
  intro h
  obtain ⟨book, hr⟩ := recorded_run (recorded_start endpoint timeout openings refusal) operations
  refine ⟨hr.kept, hr.map_answeredOn, hr.ready.accounted.offered, ?_⟩
  intro Answers hanswers s hs response hok
  obtain ⟨n, j, answer, hkept, hwritten, hdelivered, hread⟩ := hr.exists_lines hs hok
  exact ⟨n, answer, hkept, hanswers n j _ _ hwritten hdelivered, hread⟩

end History

end SiteAtlas
