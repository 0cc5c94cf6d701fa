import SiteAtlas.Error.ClientError

/-!
Waiting for a service to answer. It is probed at once, and then after pauses that double from 50
milliseconds up to one second, until it answers or the time is over. Times are in nanoseconds.
-/
namespace SiteAtlas.Channel

/-- A clock that can be read, a way to pause, and a way to probe the service. Each of them may take
time. The clock never goes back, and a pause takes as long as asked for at least. -/
structure Surroundings (σ : Type) where
  now : σ → Nat
  read : σ → Nat × σ
  pause : Nat → σ → σ
  probe : σ → Bool × σ
  now_le_read : ∀ s, now s ≤ (read s).1
  read_le_now : ∀ s, (read s).1 ≤ now (read s).2
  now_le_pause : ∀ d s, now s + d ≤ now (pause d s)
  now_le_probe : ∀ s, now s ≤ now (probe s).2

structure Waited (σ : Type) where
  reached : Bool
  state : σ

/-- Where waiting stands between two rounds: the next pause, if there is time for it, and the
state. -/
structure Waiting (σ : Type) where
  next : Nat
  next_pos : 0 < next
  state : σ

inductive Round (σ : Type) where
  | over (result : Waited σ)
  | again (waiting : Waiting σ)

def firstPause : Nat := 50 * Time.milli

def longestPause : Nat := 1000 * Time.milli

def Waiting.start {σ : Type} (s : σ) : Waiting σ := ⟨firstPause, by decide, s⟩

/-- The pause behind the next one is twice as long, up to the longest one. -/
def Waiting.double {σ : Type} (v : Waiting σ) (s : σ) : Waiting σ :=
  ⟨min (v.next * 2) longestPause,
    Nat.lt_min.2 ⟨Nat.mul_pos v.next_pos (by decide), by decide⟩, s⟩

namespace Surroundings

variable {σ : Type}

/-- Pause, for no longer than there is time left, and probe. -/
def attempt (w : Surroundings σ) (timeout start next : Nat) (s : σ) : Bool × σ :=
  let measured := w.read s
  w.probe (w.pause (min next (timeout - (measured.1 - start))) measured.2)

/-- One round: an attempt, if there is time left. -/
def round (w : Surroundings σ) (timeout start : Nat) (v : Waiting σ) : Round σ :=
  let checked := w.read v.state
  if timeout ≤ checked.1 - start then .over ⟨false, checked.2⟩
  else
    let probed := w.attempt timeout start v.next checked.2
    if probed.1 then .over ⟨true, probed.2⟩ else .again (v.double probed.2)

/-- The clock is read again for an attempt, and the pause goes by before it ends. -/
theorem now_attempt (w : Surroundings σ) (timeout start next : Nat) (s : σ) :
    w.now s ≤ (w.read s).1 ∧
      (w.read s).1 + min next (timeout - ((w.read s).1 - start)) ≤
        w.now (w.attempt timeout start next s).2 := by
  have hread := w.read_le_now s
  have hpause := w.now_le_pause (min next (timeout - ((w.read s).1 - start))) (w.read s).2
  have hprobe := w.now_le_probe (w.pause (min next (timeout - ((w.read s).1 - start))) (w.read s).2)
  exact ⟨w.now_le_read s, by simp only [attempt]; omega⟩

/-- If waiting goes on after a round, there was time left before it, and there is less now. -/
theorem lt_of_round_eq_again {w : Surroundings σ} {timeout start : Nat} {v u : Waiting σ}
    (h : w.round timeout start v = .again u) :
    w.now v.state < start + timeout ∧
      (w.now v.state < w.now u.state ∨ start + timeout ≤ w.now u.state) := by
  simp only [round] at h
  split at h
  · cases h
  · split at h
    · cases h
    · cases h
      have hchecked := w.now_le_read v.state
      have hafter := w.read_le_now v.state
      obtain ⟨hmeasured, hend⟩ := w.now_attempt timeout start v.next (w.read v.state).2
      have hpos := v.next_pos
      simp only [Waiting.double]
      omega

def retry (w : Surroundings σ) (timeout start : Nat) (v : Waiting σ) : Waited σ :=
  match _ : w.round timeout start v with
  | .over result => result
  | .again u => retry w timeout start u
termination_by start + timeout - w.now v.state
decreasing_by
  have hless := lt_of_round_eq_again ‹w.round timeout start v = .again u›
  omega

theorem retry_of_over {w : Surroundings σ} {timeout start : Nat} {v : Waiting σ} {r : Waited σ}
    (h : w.round timeout start v = .over r) : w.retry timeout start v = r := by
  rw [retry]
  split
  · rename_i hround
    exact Round.over.inj (hround.symm.trans h)
  · rename_i hround
    cases hround.symm.trans h

theorem retry_of_again {w : Surroundings σ} {timeout start : Nat} {v u : Waiting σ}
    (h : w.round timeout start v = .again u) :
    w.retry timeout start v = w.retry timeout start u := by
  rw [retry]
  split
  · rename_i hround
    cases hround.symm.trans h
  · rename_i hround
    rw [Round.again.inj (hround.symm.trans h)]

/-- Probe at once, then wait. -/
def wait (w : Surroundings σ) (timeout : Nat) (s : σ) : Waited σ :=
  let probed := w.probe s
  if probed.1 then ⟨true, probed.2⟩
  else
    let started := w.read probed.2
    w.retry timeout started.1 (.start started.2)

/-- Wait until the service at a path answers; it is an error if it does not in time. -/
def ensureReachable (w : Surroundings σ) (path : String) (timeout : Nat) (s : σ) :
    Except ClientError Unit × σ :=
  let waited := w.wait timeout s
  (if waited.reached then .ok () else .error (.unresponsive path timeout), waited.state)

end Surroundings

end SiteAtlas.Channel
