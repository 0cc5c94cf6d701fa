import SiteAtlas.Channel.Network
import SiteAtlas.Proofs.Channel.Segments

/-!
# Bytes on a connection

What the log tells about one connection, what a stream has to offer, and what one operation on a
stream takes from either side.
-/
namespace SiteAtlas.Channel

open Utf8 (Bytes)

def Event.writtenOn (number : Nat) : Event → Bytes
  | .wrote n bytes => if n = number then bytes else []
  | _ => []

def Event.deliveredOn (number : Nat) : Event → Bytes
  | .read n bytes => if n = number then bytes else []
  | _ => []

def writtenOn (number : Nat) (log : List Event) : Bytes := log.flatMap (·.writtenOn number)

def deliveredOn (number : Nat) (log : List Event) : Bytes := log.flatMap (·.deliveredOn number)

@[simp] theorem writtenOn_append (n : Nat) (a b : List Event) :
    writtenOn n (a ++ b) = writtenOn n a ++ writtenOn n b :=
  List.flatMap_append

@[simp] theorem deliveredOn_append (n : Nat) (a b : List Event) :
    deliveredOn n (a ++ b) = deliveredOn n a ++ deliveredOn n b :=
  List.flatMap_append

/-- The pieces of a line that were taken are written on its connection, and on no other. -/
theorem writtenOn_sending (n m : Nat) (line : Bytes) (taken : List Bytes) :
    writtenOn n (.sending m line :: taken.map (.wrote m)) =
      if m = n then taken.flatten else [] := by
  change writtenOn n (taken.map (.wrote m)) = _
  induction taken with
  | nil => simp [writtenOn]
  | cons bytes taken ih =>
    rw [List.map_cons, writtenOn, List.flatMap_cons, ← writtenOn, ih]
    by_cases h : m = n
    · simp [Event.writtenOn, h]
    · simp [Event.writtenOn, h]

theorem deliveredOn_sending (n m : Nat) (line : Bytes) (taken : List Bytes) :
    deliveredOn n (.sending m line :: taken.map (.wrote m)) = [] := by
  induction taken with
  | nil => rfl
  | cons bytes taken ih => exact ih

theorem writtenOn_received (n m : Nat) (received : List Bytes) :
    writtenOn n (received.map (.read m)) = [] := by
  induction received with
  | nil => rfl
  | cons bytes received ih => exact ih

theorem deliveredOn_received (n m : Nat) (received : List Bytes) :
    deliveredOn n (received.map (.read m)) = if m = n then received.flatten else [] := by
  induction received with
  | nil => simp [deliveredOn]
  | cons bytes received ih =>
    rw [List.map_cons, deliveredOn, List.flatMap_cons, ← deliveredOn, ih]
    by_cases h : m = n
    · simp [Event.deliveredOn, h]
    · simp [Event.deliveredOn, h]

/-- All bytes that reads may give, in order. -/
def offered (reads : List ReadReaction) : Bytes :=
  reads.flatMap fun
    | .chunk bytes _ => bytes
    | _ => []

@[simp] theorem offered_chunk (bytes : Bytes) (delay : Nat) (reads : List ReadReaction) :
    offered (.chunk bytes delay :: reads) = bytes ++ offered reads :=
  List.flatMap_cons

def offeredOn (openings : List Opening) (number : Nat) : Bytes :=
  match openings[number]? with
  | some ⟨_, .accepted stream⟩ => offered stream.reads
  | _ => []

/-- What is taken is the front of what is written, and all of it if writing succeeds. -/
theorem taken_writeAll (writes : List WriteReaction) (bytes : Bytes) :
    (writeAll writes bytes).taken.flatten <+: bytes ∧
      ((writeAll writes bytes).reply = .done → (writeAll writes bytes).taken.flatten = bytes) := by
  fun_induction writeAll writes bytes with
  | case1 | case4 | case6 | case7 => simp
  | case2 | case3 => simp
  | case5 n writes bytes hne rest ih =>
    obtain ⟨⟨tail, htail⟩, hdone⟩ := ih
    rw [List.flatten_cons]
    constructor
    · refine ⟨tail, ?_⟩
      rw [List.append_assoc, htail, List.take_append_drop]
    · intro hreply
      rw [hdone hreply, List.take_append_drop]

/-- Sending takes the front of a line, all of it if it succeeds, and leaves the reads alone. -/
theorem taken_send (s : Stream) (line : Bytes) :
    (s.send line).2.1.flatten <+: line ∧
      ((s.send line).1 = .done → (s.send line).2.1.flatten = line) ∧
      (s.send line).2.2.reads = s.reads := by
  obtain ⟨hfront, hall⟩ := taken_writeAll s.writes line
  rw [Stream.send]
  cases hreply : (writeAll s.writes line).reply with
  | done => exact ⟨hfront, fun _ => hall hreply, rfl⟩
  | failed why =>
    refine ⟨hfront, ?_, rfl⟩
    intro h
    cases h
  | hangs =>
    refine ⟨hfront, ?_, rfl⟩
    intro h
    cases h

/-- Reading takes the front of what is offered. -/
theorem received_readFrame (deadline : Nat) (clock : Clock) (buffer : Bytes)
    (reads : List ReadReaction) :
    (readFrame deadline clock buffer reads).received.flatten <+: offered reads := by
  fun_induction readFrame deadline clock buffer reads with
  | case10 clock buffer _ bytes delay reads _ _ _ rest ih =>
    obtain ⟨tail, htail⟩ := ih
    refine ⟨tail, ?_⟩
    rw [List.flatten_cons, List.append_assoc, htail, offered_chunk]
  | _ => exact List.nil_prefix

/-- A frame is the first line of what was buffered and received, and no byte is lost. -/
theorem readFrame_eq_ok {deadline : Nat} {clock : Clock} {buffer frame rest : Bytes}
    {reads left : List ReadReaction}
    (h : (readFrame deadline clock buffer reads).frame = .ok (frame, rest, left)) :
    lineEnd ∉ frame ∧
      buffer ++ (readFrame deadline clock buffer reads).received.flatten =
        frame ++ lineEnd :: rest ∧
      offered reads = (readFrame deadline clock buffer reads).received.flatten ++ offered left := by
  fun_induction readFrame deadline clock buffer reads with
  | case1 clock buffer reads line tail hcut =>
    cases h
    obtain ⟨hbytes, hline⟩ := cutLine?_eq_some hcut
    refine ⟨hline, ?_, rfl⟩
    rw [List.flatten_nil, List.append_nil, hbytes]
  | case10 clock buffer _ bytes delay reads _ _ _ more ih =>
    obtain ⟨hline, hbytes, hleft⟩ := ih h
    refine ⟨hline, ?_, ?_⟩
    · rw [List.flatten_cons, ← List.append_assoc, hbytes]
    · rw [offered_chunk, hleft, List.flatten_cons, List.append_assoc]
  | _ => cases h

/-- Only an attempt to connect counts as one. -/
theorem connects_record {network : Network} {events : List Event}
    (h : ∀ e ∈ events, ∀ n, e ≠ .connecting n) :
    (network.record events).connects = network.connects := by
  rw [Network.connects, Network.record, List.countP_append, ← Network.connects]
  refine Nat.add_eq_left.2 (List.countP_eq_zero.2 ?_)
  intro e he
  cases e with
  | connecting n => exact absurd rfl (h _ he n)
  | sending | wrote | read => exact Bool.false_ne_true

theorem connects_record_sending (network : Network) (n : Nat) (line : Bytes) (taken : List Bytes) :
    (network.record (.sending n line :: taken.map (.wrote n))).connects = network.connects := by
  apply connects_record
  intro e he m hconnecting
  subst hconnecting
  simp at he

theorem connects_record_received (network : Network) (n : Nat) (received : List Bytes) :
    (network.record (received.map (.read n))).connects = network.connects := by
  apply connects_record
  intro e he m hconnecting
  subst hconnecting
  simp at he

theorem connect_of_nil {network : Network} (h : network.openings = []) :
    network.connect = (network.connects, ⟨0, .refused network.refusal⟩,
      network.record [.connecting network.connects]) := by
  have hrecord : (network.record [.connecting network.connects]).openings = [] := h
  rw [Network.connect]
  simp only [hrecord]
  rfl

theorem connect_of_cons {network : Network} {opening : Opening} {openings : List Opening}
    (h : network.openings = opening :: openings) :
    network.connect = (network.connects, opening,
      { network.record [.connecting network.connects] with openings := openings }) := by
  have hrecord : (network.record [.connecting network.connects]).openings = opening :: openings := h
  rw [Network.connect]
  simp only [hrecord]

theorem number_connect (network : Network) : network.connect.1 = network.connects := by
  cases h : network.openings with
  | nil => rw [connect_of_nil h]
  | cons opening openings => rw [connect_of_cons h]

/-- An attempt is on record. -/
theorem log_connect (network : Network) :
    network.connect.2.2.log = network.log ++ [.connecting network.connects] := by
  cases h : network.openings with
  | nil => rw [connect_of_nil h]; rfl
  | cons opening openings => rw [connect_of_cons h]; rfl

theorem connects_connect (network : Network) :
    network.connect.2.2.connects = network.connects + 1 := by
  rw [Network.connects, log_connect, List.countP_append]
  rfl

/-- An attempt uses up one opening. -/
theorem openings_connect (network : Network) :
    network.connect.2.2.openings = network.openings.tail := by
  cases h : network.openings with
  | nil => rw [connect_of_nil h]; exact h
  | cons opening openings => rw [connect_of_cons h]; rfl

/-- Only an opening that is there can be accepted. -/
theorem head?_openings {network : Network} {delay : Nat} {stream : Stream}
    (h : network.connect.2.1 = ⟨delay, .accepted stream⟩) :
    network.openings.head? = some ⟨delay, .accepted stream⟩ := by
  cases hopenings : network.openings with
  | nil =>
    rw [connect_of_nil hopenings] at h
    cases h
  | cons opening openings =>
    rw [connect_of_cons hopenings] at h
    rw [List.head?_cons, ← h]

end SiteAtlas.Channel
