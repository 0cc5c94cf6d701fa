import SiteAtlas.Channel.Transport
import SiteAtlas.Proofs.Channel.Traffic
import SiteAtlas.Proofs.Wire.Framing

/-!
# What has been asked and answered

For each connection there is a list of requests with the frames that answered them. The log agrees
with it: the bytes written start with the requests and the bytes delivered with the frames. On a
connection that is kept for the next request nothing else was written, and what was delivered
beyond the frames is in its buffer.
-/
namespace SiteAtlas

open Utf8 (Bytes)
open Channel

/-- A request and the frame that was read as its response. -/
structure Answered where
  request : Request
  frame : Bytes
  response : Response
  whole : lineEnd ∉ frame
  read : Response.ofLine frame = .ok response

def asked (entries : List Answered) : Bytes := entries.flatMap (·.request.bytes)

def answers (entries : List Answered) : Bytes := joinLines (entries.map (·.frame))

@[simp] theorem asked_append (a b : List Answered) : asked (a ++ b) = asked a ++ asked b :=
  List.flatMap_append

@[simp] theorem asked_singleton (e : Answered) : asked [e] = e.request.bytes :=
  List.flatMap_singleton ..

@[simp] theorem answers_append (a b : List Answered) :
    answers (a ++ b) = answers a ++ answers b := by
  rw [answers, List.map_append, joinLines_append]
  rfl

@[simp] theorem answers_singleton (e : Answered) : answers [e] = e.frame ++ [lineEnd] :=
  joinLines_singleton e.frame

/-- Requests are lines too. -/
theorem asked_eq_joinLines (entries : List Answered) :
    asked entries = joinLines (entries.map (·.request.bytes.dropLast)) := by
  induction entries with
  | nil => rfl
  | cons e entries ih =>
    rw [asked] at ih
    rw [asked, List.flatMap_cons, ih, List.map_cons, joinLines_cons, e.request.bytes_eq.1,
      List.dropLast_concat, List.append_assoc, List.singleton_append]

/-- For each connection what was asked and answered on it, in order. -/
abbrev Book := Nat → List Answered

def Book.enter (book : Book) (number : Nat) (e : Answered) : Book :=
  fun n => if n = number then book n ++ [e] else book n

@[simp] theorem Book.enter_self (book : Book) (n : Nat) (e : Answered) :
    book.enter n e n = book n ++ [e] := if_pos rfl

theorem Book.enter_of_ne (book : Book) {n m : Nat} (h : m ≠ n) (e : Answered) :
    book.enter n e m = book m := if_neg h

/-- The book agrees with what happened on a network that had these openings at first. -/
structure Accounted (openings : List Opening) (book : Book) (network : Network) : Prop where
  left : network.openings = openings.drop network.connects
  written : ∀ n, asked (book n) <+: writtenOn n network.log
  delivered : ∀ n, answers (book n) <+: deliveredOn n network.log
  offered : ∀ n, deliveredOn n network.log <+: offeredOn openings n
  unused : ∀ n, network.connects ≤ n →
    writtenOn n network.log = [] ∧ deliveredOn n network.log = []

/-- An open connection: all requests on it are answered but for the pending bytes, and all bytes
delivered are in the frames or in the buffer. -/
structure Current (openings : List Opening) (book : Book) (network : Network) (pending : Bytes)
    (c : Connection) : Prop where
  opened : c.number < network.connects
  written : writtenOn c.number network.log = asked (book c.number) ++ pending
  delivered : deliveredOn c.number network.log = answers (book c.number) ++ c.buffer
  unread : offeredOn openings c.number =
    deliveredOn c.number network.log ++ offered c.stream.reads

namespace Accounted

variable {openings : List Opening} {book : Book} {network : Network}

theorem start (openings : List Opening) (refusal : IoFailure) :
    Accounted openings (fun _ => []) ⟨openings, refusal, []⟩ where
  left := rfl
  written _ := List.nil_prefix
  delivered _ := List.nil_prefix
  offered _ := List.nil_prefix
  unused _ _ := ⟨rfl, rfl⟩

/-- On a connection that does not exist yet there are no entries. -/
theorem book_eq_nil (h : Accounted openings book network) {n : Nat} (hn : network.connects ≤ n) :
    book n = [] := by
  have hprefix := h.delivered n
  rw [(h.unused n hn).2, List.prefix_nil] at hprefix
  exact List.map_eq_nil_iff.1 (joinLines_eq_nil hprefix)

/-- The first lines that a connection delivered are the frames of its entries. -/
theorem take_delivered (h : Accounted openings book network) (n : Nat) :
    (segments (deliveredOn n network.log)).take (book n).length = (book n).map (·.frame) := by
  have hwhole : ∀ line ∈ (book n).map (·.frame), lineEnd ∉ line := by
    intro line hline
    obtain ⟨e, _, rfl⟩ := List.mem_map.1 hline
    exact e.whole
  have htake := take_segments hwhole (h.delivered n)
  rwa [List.length_map] at htake

/-- The first lines written on a connection are the requests of its entries. -/
theorem take_written (h : Accounted openings book network) (n : Nat) :
    (segments (writtenOn n network.log)).take (book n).length =
      (book n).map (·.request.bytes.dropLast) := by
  have hwhole : ∀ line ∈ (book n).map (·.request.bytes.dropLast), lineEnd ∉ line := by
    intro line hline
    obtain ⟨e, _, rfl⟩ := List.mem_map.1 hline
    exact e.request.bytes_eq.2
  have hprefix := h.written n
  rw [asked_eq_joinLines] at hprefix
  have htake := take_segments hwhole hprefix
  rwa [List.length_map] at htake

theorem connect (h : Accounted openings book network) :
    Accounted openings book network.connect.2.2 := by
  have hw : ∀ n, writtenOn n network.connect.2.2.log = writtenOn n network.log := by
    intro n
    rw [log_connect, writtenOn_append]
    exact List.append_nil _
  have hd : ∀ n, deliveredOn n network.connect.2.2.log = deliveredOn n network.log := by
    intro n
    rw [log_connect, deliveredOn_append]
    exact List.append_nil _
  constructor
  · rw [openings_connect, connects_connect, h.left, List.tail_drop]
  · intro n
    rw [hw]
    exact h.written n
  · intro n
    rw [hd]
    exact h.delivered n
  · intro n
    rw [hd]
    exact h.offered n
  · intro n hn
    rw [connects_connect] at hn
    rw [hw, hd]
    exact h.unused n (Nat.le_of_succ_le hn)

/-- Writing on a connection that exists. -/
theorem sending (h : Accounted openings book network) {m : Nat} (hm : m < network.connects)
    (line : Bytes) (taken : List Bytes) :
    Accounted openings book (network.record (.sending m line :: taken.map (.wrote m))) := by
  constructor
  · rw [connects_record_sending]
    exact h.left
  · intro n
    rw [Network.record, writtenOn_append]
    exact (h.written n).trans (List.prefix_append _ _)
  · intro n
    rw [Network.record, deliveredOn_append, deliveredOn_sending, List.append_nil]
    exact h.delivered n
  · intro n
    rw [Network.record, deliveredOn_append, deliveredOn_sending, List.append_nil]
    exact h.offered n
  · intro n hn
    rw [connects_record_sending] at hn
    have hne : m ≠ n := by omega
    rw [Network.record, writtenOn_append, writtenOn_sending, if_neg hne, deliveredOn_append,
      deliveredOn_sending, List.append_nil, List.append_nil]
    exact h.unused n hn

/-- Reading from a connection that exists what its stream offers. -/
theorem received (h : Accounted openings book network) {m : Nat} (hm : m < network.connects)
    {received : List Bytes}
    (ho : deliveredOn m network.log ++ received.flatten <+: offeredOn openings m) :
    Accounted openings book (network.record (received.map (.read m))) := by
  constructor
  · rw [connects_record_received]
    exact h.left
  · intro n
    rw [Network.record, writtenOn_append, writtenOn_received, List.append_nil]
    exact h.written n
  · intro n
    rw [Network.record, deliveredOn_append]
    exact (h.delivered n).trans (List.prefix_append _ _)
  · intro n
    rw [Network.record, deliveredOn_append, deliveredOn_received]
    by_cases hn : m = n
    · subst hn
      rw [if_pos rfl]
      exact ho
    · rw [if_neg hn, List.append_nil]
      exact h.offered n
  · intro n hn
    rw [connects_record_received] at hn
    have hne : m ≠ n := by omega
    rw [Network.record, writtenOn_append, writtenOn_received, deliveredOn_append,
      deliveredOn_received, if_neg hne, List.append_nil, List.append_nil]
    exact h.unused n hn

/-- A further entry for a connection whose log starts with it as well. -/
theorem enter (h : Accounted openings book network) {m : Nat} {e : Answered}
    (hw : asked (book m ++ [e]) <+: writtenOn m network.log)
    (hd : answers (book m ++ [e]) <+: deliveredOn m network.log) :
    Accounted openings (book.enter m e) network := by
  refine ⟨h.left, ?_, ?_, h.offered, h.unused⟩
  · intro n
    by_cases hn : n = m
    · subst hn
      rw [Book.enter_self]
      exact hw
    · rw [Book.enter_of_ne book hn]
      exact h.written n
  · intro n
    by_cases hn : n = m
    · subst hn
      rw [Book.enter_self]
      exact hd
    · rw [Book.enter_of_ne book hn]
      exact h.delivered n

end Accounted

namespace Current

variable {openings : List Opening} {book : Book} {network : Network} {pending : Bytes}
  {c : Connection}

/-- What is written on the connection is pending. -/
theorem sending (h : Current openings book network pending c) (line : Bytes) (taken : List Bytes)
    {stream : Stream} (hreads : stream.reads = c.stream.reads) :
    Current openings book (network.record (.sending c.number line :: taken.map (.wrote c.number)))
      (pending ++ taken.flatten) { c with stream := stream } := by
  constructor
  · rw [connects_record_sending]
    exact h.opened
  · rw [Network.record, writtenOn_append, writtenOn_sending, if_pos rfl, h.written,
      List.append_assoc]
  · rw [Network.record, deliveredOn_append, deliveredOn_sending, List.append_nil]
    exact h.delivered
  · rw [Network.record, deliveredOn_append, deliveredOn_sending, List.append_nil, hreads]
    exact h.unread

/-- A frame that answers the pending request makes an entry, and nothing is pending then. -/
theorem answered {e : Answered} (h : Current openings book network e.request.bytes c)
    {received : List Bytes} {buffer : Bytes} {reads : List ReadReaction}
    (hframe : c.buffer ++ received.flatten = e.frame ++ lineEnd :: buffer)
    (hleft : offered c.stream.reads = received.flatten ++ offered reads) :
    Current openings (book.enter c.number e) (network.record (received.map (.read c.number))) []
      { c with stream := { c.stream with reads := reads }, buffer := buffer } := by
  constructor
  · rw [connects_record_received]
    exact h.opened
  · rw [Network.record, writtenOn_append, writtenOn_received, h.written, Book.enter_self,
      asked_append, asked_singleton]
  · rw [Network.record, deliveredOn_append, deliveredOn_received, if_pos rfl, h.delivered,
      List.append_assoc, hframe, Book.enter_self, answers_append, answers_singleton]
    simp only [List.append_assoc, List.singleton_append]
  · rw [Network.record, deliveredOn_append, deliveredOn_received, if_pos rfl, h.unread, hleft,
      List.append_assoc]

/-- A connection that was just made. -/
theorem connect (h : Accounted openings book network) {delay : Nat} {stream : Stream}
    (haccepted : network.connect.2.1 = ⟨delay, .accepted stream⟩) :
    Current openings book network.connect.2.2 [] ⟨network.connects, stream, []⟩ := by
  obtain ⟨hwritten, hdelivered⟩ := h.unused network.connects (Nat.le_refl _)
  have hbook := h.book_eq_nil (Nat.le_refl _)
  have hopening : openings[network.connects]? = some ⟨delay, .accepted stream⟩ := by
    rw [← List.head?_drop, ← h.left]
    exact head?_openings haccepted
  constructor
  · rw [connects_connect]
    exact Nat.lt_succ_self _
  · rw [log_connect, writtenOn_append, hwritten, hbook]
    rfl
  · rw [log_connect, deliveredOn_append, hdelivered, hbook]
    rfl
  · rw [log_connect, deliveredOn_append, hdelivered, offeredOn, hopening]
    rfl

end Current

end SiteAtlas
