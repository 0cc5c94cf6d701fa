import Mathlib.Algebra.Ring.Nat
import SiteAtlas.Channel.Reach

/-!
# Waiting ends, and says what came of it

What is done while waiting is recorded by surroundings that pass everything on. A round reads the
clock and stops, or it reads it twice, pauses and probes; so the record is that of a row of rounds,
and what holds of all rows of rounds is shown by induction on them.
-/
namespace SiteAtlas.Channel

inductive WaitEvent where
  | read (time : Nat)
  | pause (duration : Nat)
  | probe (answered : Bool)
  deriving DecidableEq, Repr

def readings (log : List WaitEvent) : List Nat :=
  log.filterMap fun
    | .read time => some time
    | _ => none

def pauses (log : List WaitEvent) : List Nat :=
  log.filterMap fun
    | .pause d => some d
    | _ => none

def probes (log : List WaitEvent) : List Bool :=
  log.filterMap fun
    | .probe answered => some answered
    | _ => none

variable {σ : Type}

def Waiting.recorded (v : Waiting σ) (log : List WaitEvent) : Waiting (σ × List WaitEvent) :=
  ⟨v.next, v.next_pos, v.state, log⟩

def Waited.recorded (r : Waited σ) (log : List WaitEvent) : Waited (σ × List WaitEvent) :=
  ⟨r.reached, r.state, log⟩

def Round.recorded (log : List WaitEvent) : Round σ → Round (σ × List WaitEvent)
  | .over r => .over (r.recorded log)
  | .again v => .again (v.recorded log)

namespace Surroundings

/-- The same surroundings with a record of what is done in them. -/
def recording (w : Surroundings σ) : Surroundings (σ × List WaitEvent) where
  now s := w.now s.1
  read s := ((w.read s.1).1, (w.read s.1).2, s.2 ++ [.read (w.read s.1).1])
  pause d s := (w.pause d s.1, s.2 ++ [.pause d])
  probe s := ((w.probe s.1).1, (w.probe s.1).2, s.2 ++ [.probe (w.probe s.1).1])
  now_le_read s := w.now_le_read s.1
  read_le_now s := w.read_le_now s.1
  now_le_pause d s := w.now_le_pause d s.1
  now_le_probe s := w.now_le_probe s.1

end Surroundings

/-- The pause before cutting it, after so many others. -/
def pauseAfter (i : Nat) : Nat := min (firstPause * 2 ^ i) longestPause

theorem pauseAfter_zero : pauseAfter 0 = firstPause := by decide

theorem pauseAfter_succ (i : Nat) : pauseAfter (i + 1) = min (pauseAfter i * 2) longestPause := by
  have hdouble : firstPause * 2 ^ (i + 1) = firstPause * 2 ^ i * 2 := by
    rw [Nat.pow_succ, Nat.mul_assoc]
  unfold pauseAfter
  omega

theorem firstPause_le_pauseAfter (i : Nat) : firstPause ≤ pauseAfter i := by
  have hpow : firstPause * 1 ≤ firstPause * 2 ^ i := Nat.mul_le_mul_left _ Nat.one_le_two_pow
  have hlongest : firstPause ≤ longestPause := by decide
  unfold pauseAfter
  omega

/-- A pause lasts no longer than the time that is left. -/
def cutPause (timeout start next time : Nat) : Nat := min next (timeout - (time - start))

namespace Surroundings

/-- What is done in a round, and what it comes to. Times only grow on the way. -/
inductive Passes (w : Surroundings σ) (timeout start : Nat) (v : Waiting σ) :
    List WaitEvent → Round σ → Prop
  | late {c : Nat} {s : σ} (checked : w.now v.state ≤ c) (expired : timeout ≤ c - start)
      (after : c ≤ w.now s) : Passes w timeout start v [.read c] (.over ⟨false, s⟩)
  | reached {c n : Nat} {s : σ} (checked : w.now v.state ≤ c) (left : c - start < timeout)
      (measured : c ≤ n) (after : n + cutPause timeout start v.next n ≤ w.now s) :
      Passes w timeout start v
        [.read c, .read n, .pause (cutPause timeout start v.next n), .probe true]
        (.over ⟨true, s⟩)
  | failed {c n : Nat} {s : σ} (checked : w.now v.state ≤ c) (left : c - start < timeout)
      (measured : c ≤ n) (after : n + cutPause timeout start v.next n ≤ w.now s) :
      Passes w timeout start v
        [.read c, .read n, .pause (cutPause timeout start v.next n), .probe false]
        (.again (v.double s))

def events (w : Surroundings σ) (timeout start : Nat) (v : Waiting σ) : List WaitEvent :=
  let checked := w.read v.state
  let measured := (w.read checked.2).1
  if timeout ≤ checked.1 - start then [.read checked.1]
  else
    [.read checked.1, .read measured, .pause (cutPause timeout start v.next measured),
      .probe (w.attempt timeout start v.next checked.2).1]

theorem attempt_recording (w : Surroundings σ) (timeout start next : Nat) (s : σ)
    (log : List WaitEvent) :
    w.recording.attempt timeout start next (s, log) =
      ((w.attempt timeout start next s).1, (w.attempt timeout start next s).2,
        log ++ [.read (w.read s).1, .pause (cutPause timeout start next (w.read s).1),
          .probe (w.attempt timeout start next s).1]) := by
  simp [attempt, recording, cutPause]

/-- A record changes nothing about a round, and it holds what is done in it. -/
theorem round_recording (w : Surroundings σ) (timeout start : Nat) (v : Waiting σ)
    (log : List WaitEvent) :
    w.recording.round timeout start (v.recorded log) =
      (w.round timeout start v).recorded (log ++ w.events timeout start v) := by
  have hchecked : w.recording.read (v.recorded log).state =
      ((w.read v.state).1, (w.read v.state).2, log ++ [.read (w.read v.state).1]) := rfl
  simp only [round, events, hchecked, attempt_recording]
  split
  · rfl
  · cases hprobe : (w.attempt timeout start v.next (w.read v.state).2).1 <;>
      simp [Round.recorded, Waited.recorded, Waiting.recorded, Waiting.double, hprobe]

theorem round_passes (w : Surroundings σ) (timeout start : Nat) (v : Waiting σ) :
    w.Passes timeout start v (w.events timeout start v) (w.round timeout start v) := by
  have hchecked := w.now_le_read v.state
  have hread := w.read_le_now v.state
  obtain ⟨hmeasured, hafter⟩ := w.now_attempt timeout start v.next (w.read v.state).2
  simp only [round, events]
  split
  · rename_i hover
    exact .late hchecked hover hread
  · rename_i hover
    have hleft := Nat.lt_of_not_le hover
    have hmeasured := Nat.le_trans hread hmeasured
    cases (w.attempt timeout start v.next (w.read v.state).2).1 with
    | false => exact .failed hchecked hleft hmeasured hafter
    | true => exact .reached hchecked hleft hmeasured hafter

end Surroundings

/-- What is done from the round with a number on, at a time; whether a probe succeeds in the end,
and the time then. -/
inductive Rounds (timeout start : Nat) : Nat → Nat → List WaitEvent → Bool → Nat → Prop
  | late {i t c u : Nat} (checked : t ≤ c) (expired : timeout ≤ c - start) (after : c ≤ u) :
      Rounds timeout start i t [.read c] false u
  | reached {i t c n u : Nat} (checked : t ≤ c) (left : c - start < timeout) (measured : c ≤ n)
      (after : n + cutPause timeout start (pauseAfter i) n ≤ u) :
      Rounds timeout start i t
        [.read c, .read n, .pause (cutPause timeout start (pauseAfter i) n), .probe true] true u
  | failed {i t c n t' u : Nat} {answered : Bool} {es : List WaitEvent} (checked : t ≤ c)
      (left : c - start < timeout) (measured : c ≤ n)
      (after : n + cutPause timeout start (pauseAfter i) n ≤ t')
      (rest : Rounds timeout start (i + 1) t' es answered u) :
      Rounds timeout start i t
        (.read c :: .read n :: .pause (cutPause timeout start (pauseAfter i) n) ::
          .probe false :: es) answered u

/-- Waiting makes a row of rounds, and a record of it changes nothing. -/
theorem Surroundings.retry_rounds (w : Surroundings σ) (timeout start : Nat) (v : Waiting σ)
    {i : Nat} (hnext : v.next = pauseAfter i) :
    ∃ es, Rounds timeout start i (w.now v.state) es (w.retry timeout start v).reached
        (w.now (w.retry timeout start v).state) ∧
      ∀ log, w.recording.retry timeout start (v.recorded log) =
        (w.retry timeout start v).recorded (log ++ es) := by
  induction v using retry.induct w timeout start generalizing i with
  | case1 v r hround =>
    have hpasses := w.round_passes timeout start v
    have hrecording := w.round_recording timeout start v
    rw [hround] at hpasses hrecording
    rw [retry_of_over hround]
    refine ⟨w.events timeout start v, ?_, fun log => retry_of_over (hrecording log)⟩
    generalize w.events timeout start v = es at hpasses
    cases hpasses with
    | late checked expired after => exact .late checked expired after
    | reached checked left measured after =>
      rw [hnext] at after ⊢
      exact .reached checked left measured after
  | case2 v u hround ih =>
    have hpasses := w.round_passes timeout start v
    have hrecording := w.round_recording timeout start v
    rw [hround] at hpasses hrecording
    generalize w.events timeout start v = es at hpasses hrecording
    cases hpasses with
    | @failed c n s checked left measured after =>
      have hdouble : (v.double s).next = pauseAfter (i + 1) := by
        rw [pauseAfter_succ, ← hnext]
        rfl
      obtain ⟨rest, hrest, hlog⟩ := ih hdouble
      rw [retry_of_again hround]
      rw [hnext] at after hrecording
      refine ⟨_, .failed checked left measured after hrest, fun log => ?_⟩
      rw [retry_of_again (hrecording log), hlog, List.append_assoc]
      rfl

/-- All ways to cut a list at one of its elements. -/
theorem forall_cut_cons {α : Type} {P : List α → α → List α → Prop} {a : α} {as : List α} :
    (∀ front x back, a :: as = front ++ x :: back → P front x back) ↔
      P [] a as ∧ ∀ front x back, as = front ++ x :: back → P (a :: front) x back := by
  constructor
  · intro h
    exact ⟨h [] a as rfl, fun front x back has => h (a :: front) x back (by rw [has]; rfl)⟩
  · rintro ⟨hfirst, hrest⟩ front x back hcut
    cases front with
    | nil =>
      cases hcut
      exact hfirst
    | cons b front =>
      cases hcut
      exact hrest front x back rfl

@[simp] theorem pauses_cons_read (time : Nat) (log : List WaitEvent) :
    pauses (.read time :: log) = pauses log := rfl

@[simp] theorem pauses_cons_pause (d : Nat) (log : List WaitEvent) :
    pauses (.pause d :: log) = d :: pauses log := rfl

@[simp] theorem pauses_cons_probe (answered : Bool) (log : List WaitEvent) :
    pauses (.probe answered :: log) = pauses log := rfl

@[simp] theorem pauses_nil : pauses [] = [] := rfl

@[simp] theorem probes_cons_read (time : Nat) (log : List WaitEvent) :
    probes (.read time :: log) = probes log := rfl

@[simp] theorem probes_cons_pause (d : Nat) (log : List WaitEvent) :
    probes (.pause d :: log) = probes log := rfl

@[simp] theorem probes_cons_probe (answered : Bool) (log : List WaitEvent) :
    probes (.probe answered :: log) = answered :: probes log := rfl

@[simp] theorem probes_nil : probes [] = [] := rfl

namespace Rounds

variable {timeout start i t u : Nat} {es : List WaitEvent} {answered : Bool}

theorem answered_iff (h : Rounds timeout start i t es answered u) :
    answered = true ↔ .probe true ∈ es := by
  induction h with
  | late => simp
  | reached => simp
  | failed _ _ _ _ _ ih => simpa using ih

/-- Nothing is done behind a probe that succeeds. -/
theorem probe_last (h : Rounds timeout start i t es answered u) :
    ∀ front x back, es = front ++ x :: back → x = .probe true → back = [] := by
  induction h with
  | late => simp [forall_cut_cons]
  | reached => simp [forall_cut_cons]
  | failed _ _ _ _ _ ih => simpa [forall_cut_cons] using ih

/-- A pause follows a reading of the clock, which decides how long it is. -/
theorem pause_eq (h : Rounds timeout start i t es answered u) :
    ∀ front x back, es = front ++ x :: back → ∀ d, x = .pause d → ∃ before now,
      front = before ++ [.read now] ∧
        d = cutPause timeout start (pauseAfter (i + (pauses front).length)) now := by
  induction h with
  | late => simp [forall_cut_cons]
  | @reached _ _ c n =>
    have hread : [WaitEvent.read c, .read n] = [.read c] ++ [.read n] := rfl
    simpa [forall_cut_cons] using ⟨_, _, hread, rfl⟩
  | @failed i _ c n _ _ _ _ _ _ _ _ _ ih =>
    have hread : [WaitEvent.read c, .read n] = [.read c] ++ [.read n] := rfl
    simp only [forall_cut_cons, reduceCtorEq, false_imp_iff, implies_true, WaitEvent.pause.injEq,
      true_and]
    refine ⟨fun d hd => ⟨_, n, hread, hd.symm⟩, fun front x back hes d hd => ?_⟩
    obtain ⟨before, now, rfl, hpause⟩ := ih front x back hes d hd
    refine ⟨_ :: _ :: _ :: _ :: before, now, rfl, ?_⟩
    have hcount : i + 1 + (pauses (before ++ [.read now])).length =
        i + ((pauses (before ++ [.read now])).length + 1) := by omega
    rw [hpause, hcount]
    rfl

/-- A pause is followed by a probe. -/
theorem probe_next (h : Rounds timeout start i t es answered u) :
    ∀ front x back, es = front ++ x :: back → ∀ d, x = .pause d →
      ∃ b rest, back = .probe b :: rest := by
  induction h with
  | late => simp [forall_cut_cons]
  | reached => simp [forall_cut_cons]
  | failed _ _ _ _ _ ih => simpa [forall_cut_cons] using ih

/-- The pauses fit into the time that is left. -/
theorem sum_pauses_le (h : Rounds timeout start i t es answered u) (hstart : start ≤ t) :
    (pauses es).sum ≤ start + timeout - t := by
  induction h with
  | late => exact Nat.zero_le _
  | reached checked left measured after =>
    simp only [pauses_cons_read, pauses_cons_pause, pauses_cons_probe, pauses_nil, cutPause,
      List.sum_cons, List.sum_nil]
    omega
  | failed checked left measured after rest ih =>
    have hrest := ih (by omega)
    simp only [pauses_cons_read, pauses_cons_pause, pauses_cons_probe, cutPause, List.sum_cons]
      at after ⊢
    omega

/-- A round behind which waiting goes on takes the first pause at least, or all the time left. -/
theorem length_probes_le (h : Rounds timeout start i t es answered u) (hstart : start ≤ t) :
    (probes es).length * firstPause < start + timeout - t + firstPause := by
  have hpos : 0 < firstPause := by decide
  induction h with
  | late =>
    rw [probes_cons_read, probes_nil, List.length_nil, Nat.zero_mul]
    exact Nat.lt_add_left _ hpos
  | reached checked left measured after =>
    simp only [probes_cons_read, probes_cons_pause, probes_cons_probe, probes_nil,
      List.length_cons, List.length_nil]
    omega
  | @failed i t c n t' u answered es checked left measured after rest ih =>
    have hrest := ih (by omega)
    have hpause := firstPause_le_pauseAfter i
    simp only [probes_cons_read, probes_cons_pause, probes_cons_probe, List.length_cons,
      Nat.succ_mul]
    rw [cutPause] at after
    by_cases hover : start + timeout ≤ t'
    · have hnone : (probes es).length * firstPause < 1 * firstPause := by omega
      have hzero : (probes es).length = 0 := by
        have := Nat.lt_of_mul_lt_mul_right hnone
        omega
      rw [hzero]
      omega
    · -- time is left after the round, so its pause was not cut
      omega

theorem elapsed (h : Rounds timeout start i t es answered u) (hstart : start ≤ t)
    (hanswered : answered = false) : start + timeout ≤ u := by
  induction h with
  | late => omega
  | reached checked left measured after => cases hanswered
  | failed checked left measured after rest ih =>
    exact ih (by omega) hanswered

end Rounds

namespace Surroundings

/-- Where waiting stands after some rounds. -/
inductive After (w : Surroundings σ) (timeout start : Nat) (v : Waiting σ) : Nat → Waiting σ → Prop
  | zero : After w timeout start v 0 v
  | succ {i : Nat} {u u' : Waiting σ} (earlier : After w timeout start v i u)
      (last : w.round timeout start u = .again u') : After w timeout start v (i + 1) u'

theorem next_of_round_eq_again {w : Surroundings σ} {timeout start : Nat} {v u : Waiting σ}
    (h : w.round timeout start v = .again u) : u.next = min (v.next * 2) longestPause := by
  have hpasses := w.round_passes timeout start v
  rw [h] at hpasses
  generalize w.events timeout start v = es at hpasses
  cases hpasses with
  | failed => rfl

theorem After.next_eq {w : Surroundings σ} {timeout start i : Nat} {s : σ} {v : Waiting σ}
    (h : w.After timeout start (.start s) i v) : v.next = pauseAfter i := by
  induction h with
  | zero => exact pauseAfter_zero.symm
  | succ _ last ih => rw [next_of_round_eq_again last, ih, pauseAfter_succ]

end Surroundings

/-- What is done while waiting, in order, and what comes of it at the end. -/
structure Waits (timeout : Nat) (log : List WaitEvent) (outcome : Except ClientError Unit)
    (finish : Nat) : Prop where
  /-- the service is probed at once, and the time runs from then on if it does not answer -/
  first : log = [.probe true] ∨ ∃ start rest, log = .probe false :: .read start :: rest
  /-- nothing is done behind a probe that succeeds -/
  last : ∀ front back, log = front ++ .probe true :: back → back = []
  /-- the pauses double up to the longest one, and are cut to the time left when the clock was read
  for them -/
  pause : ∀ front d back, log = front ++ .pause d :: back → ∃ start before now,
    (readings front).head? = some start ∧ front = before ++ [.read now] ∧
      d = min (min (firstPause * 2 ^ (pauses front).length) longestPause) (timeout - (now - start))
  /-- a pause is followed by a probe -/
  next : ∀ front d back, log = front ++ .pause d :: back →
    ∃ answered rest, back = .probe answered :: rest
  sum_pauses : (pauses log).sum ≤ timeout
  length_probes : (probes log).length * firstPause < timeout + 2 * firstPause
  ok_iff : outcome = .ok () ↔ .probe true ∈ log
  /-- the time is over before it is an error that the service does not answer -/
  error : outcome ≠ .ok () → ∃ e start, outcome = .error e ∧ e.kind = .setup ∧
    e.code = "E_START_TIMEOUT" ∧ (readings log).head? = some start ∧ start + timeout ≤ finish

theorem waits_at_once (timeout finish : Nat) : Waits timeout [.probe true] (.ok ()) finish := by
  have hcut : ∀ front x back, [WaitEvent.probe true] = front ++ x :: back →
      x = .probe true ∧ back = [] := by simp [forall_cut_cons]
  have hpause {front back : List WaitEvent} {d : Nat}
      (h : [WaitEvent.probe true] = front ++ .pause d :: back) : False := by
    cases (hcut front _ back h).1
  exact {
    first := .inl rfl
    last := fun front back h => (hcut front _ back h).2
    pause := fun front d back h => (hpause h).elim
    next := fun front d back h => (hpause h).elim
    sum_pauses := Nat.zero_le _
    length_probes := by
      have hpos : 0 < firstPause := by decide
      simp only [probes_cons_probe, probes_nil, List.length_singleton]
      omega
    ok_iff := by simp
    error := fun h => absurd rfl h }

/-- A row of rounds behind a first probe that fails. -/
theorem Rounds.waits {timeout start t u : Nat} {es : List WaitEvent} {answered : Bool}
    (h : Rounds timeout start 0 t es answered u) (hstart : start ≤ t) (path : String) :
    Waits timeout (.probe false :: .read start :: es)
      (if answered then .ok () else .error (.unresponsive path timeout)) u where
  first := .inr ⟨start, es, rfl⟩
  last := by
    have hcut : ∀ front x back, .probe false :: .read start :: es = front ++ x :: back →
        x = .probe true → back = [] := by simpa [forall_cut_cons] using h.probe_last
    exact fun front back hlog => hcut front _ back hlog rfl
  pause := by
    have hcut : ∀ front x back, .probe false :: .read start :: es = front ++ x :: back →
        ∀ d, x = .pause d → ∃ start before now, (readings front).head? = some start ∧
          front = before ++ [.read now] ∧
          d = min (min (firstPause * 2 ^ (pauses front).length) longestPause)
            (timeout - (now - start)) := by
      simp only [forall_cut_cons, reduceCtorEq, false_imp_iff, implies_true, true_and]
      intro front x back hes d hd
      obtain ⟨before, now, rfl, hpause⟩ := h.pause_eq front x back hes d hd
      rw [Nat.zero_add] at hpause
      exact ⟨start, _ :: _ :: before, now, rfl, rfl, hpause⟩
    exact fun front d back hlog => hcut front _ back hlog d rfl
  next := by
    have hcut : ∀ front x back, .probe false :: .read start :: es = front ++ x :: back →
        ∀ d, x = .pause d → ∃ b rest, back = .probe b :: rest := by
      simpa [forall_cut_cons] using h.probe_next
    exact fun front d back hlog => hcut front _ back hlog d rfl
  sum_pauses := by
    have hsum := h.sum_pauses_le hstart
    simp only [pauses_cons_probe, pauses_cons_read]
    omega
  length_probes := by
    have hlength := h.length_probes_le hstart
    simp only [probes_cons_probe, probes_cons_read, List.length_cons, Nat.succ_mul]
    omega
  ok_iff := by
    have hanswered := h.answered_iff
    cases answered <;> simpa using hanswered
  error := by
    intro hne
    cases answered with
    | true => exact absurd rfl hne
    | false => exact ⟨_, start, rfl, rfl, rfl, rfl, h.elapsed hstart rfl⟩

/-- What a record of waiting holds: one probe that succeeds, or one that fails and a row of rounds. -/
theorem Surroundings.wait_recording (w : Surroundings σ) (timeout : Nat) (s : σ) :
    ∃ log, w.recording.wait timeout (s, []) = (w.wait timeout s).recorded log ∧
      (log = [.probe true] ∧ (w.wait timeout s).reached = true ∨
        ∃ start t es, log = .probe false :: .read start :: es ∧ start ≤ t ∧
          Rounds timeout start 0 t es (w.wait timeout s).reached
            (w.now (w.wait timeout s).state)) := by
  have hrecorded : w.recording.probe (s, []) =
      ((w.probe s).1, (w.probe s).2, [.probe (w.probe s).1]) := rfl
  cases hprobe : (w.probe s).1 with
  | true =>
    have hwait : w.wait timeout s = ⟨true, (w.probe s).2⟩ := by rw [wait, hprobe]; rfl
    have hlog : w.recording.wait timeout (s, []) = ⟨true, (w.probe s).2, [.probe true]⟩ := by
      rw [wait, hrecorded, hprobe]
      rfl
    rw [hwait, hlog]
    exact ⟨[.probe true], rfl, .inl ⟨rfl, rfl⟩⟩
  | false =>
    let started := w.read (w.probe s).2
    obtain ⟨es, hrounds, hlog⟩ := w.retry_rounds timeout started.1 (.start started.2)
      pauseAfter_zero.symm
    have hwait : w.wait timeout s = w.retry timeout started.1 (.start started.2) := by
      rw [wait, hprobe]
      rfl
    have hrest : w.recording.wait timeout (s, []) = w.recording.retry timeout started.1
        ((Waiting.start started.2).recorded [.probe false, .read started.1]) := by
      rw [wait, hrecorded, hprobe]
      rfl
    rw [hwait, hrest]
    exact ⟨_, hlog _, .inr ⟨started.1, _, es, rfl, w.read_le_now _, hrounds⟩⟩

/-- Waiting ends: the record is that of a bounded number of probes and pauses, which fit into the
timeout, and its outcome is that of the last probe. Keeping the record changes nothing, and no pause
is too long to be doubled. -/
theorem waiting_ends (w : Surroundings σ) (path : String) (timeout : Nat) (s : σ) :
    let ran := w.recording.ensureReachable path timeout (s, [])
    w.ensureReachable path timeout s = (ran.1, ran.2.1) ∧
      Waits timeout ran.2.2 ran.1 (w.now ran.2.1) ∧
      ∀ start s' i v, w.After timeout start (.start s') i v →
        v.next = min (firstPause * 2 ^ i) longestPause ∧ v.next * 2 ≤ Time.longest := by
  intro ran
  obtain ⟨log, hrecorded, hlog⟩ := w.wait_recording timeout s
  have hran : ran = ((w.ensureReachable path timeout s).1,
      (w.ensureReachable path timeout s).2, log) := by
    simp only [ran, Surroundings.ensureReachable, hrecorded]
    rfl
  rw [hran]
  refine ⟨rfl, ?_, fun start s' i v h => ?_⟩
  · simp only [Surroundings.ensureReachable]
    rcases hlog with ⟨rfl, hreached⟩ | ⟨start, t, es, rfl, hstart, hrounds⟩
    · rw [hreached]
      exact waits_at_once ..
    · exact hrounds.waits hstart path
  · have hnext := h.next_eq
    have hlongest : longestPause * 2 ≤ Time.longest := by decide
    refine ⟨hnext, ?_⟩
    rw [hnext, pauseAfter]
    omega

end SiteAtlas.Channel
