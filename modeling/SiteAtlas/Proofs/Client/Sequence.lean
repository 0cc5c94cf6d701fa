import SiteAtlas.Proofs.Client.Batch

/-!
# Batches item by item

A batch of dialogues is compared with calling the dialogue for each item, one call after another.
The single calls go on whatever became of those before; the batch stops at the first failure, and up
to there both make the same requests.
-/
namespace SiteAtlas

variable {σ ι α β : Type}

/-- The dialogue for each item, run one after another: each run starts where the one before left the
exchange, also if that one failed. -/
def Dialogue.runEach (exchange : Exchange σ) (f : ι → Dialogue α) : List ι → σ → List (Run σ α)
  | [], _ => []
  | item :: rest, s =>
    let run := (f item).run exchange s
    run :: runEach exchange f rest run.state

namespace Run

def endState (runs : List (Run σ α)) (s : σ) : σ := runs.foldl (fun _ run => run.state) s

/-- What a batch makes of the runs for its items: all answers in order, or else the first failure as
it is, with the requests up to and including it and none after it. -/
inductive FailFast (s : σ) : List (Run σ α) → Run σ (List α) → Prop where
  | answered {runs : List (Run σ α)} {answers : List α}
      (each : runs.map outcome = answers.map .ok) :
      FailFast s runs ⟨.ok answers, runs.flatMap calls, endState runs s⟩
  | failed {before : List (Run σ α)} {run : Run σ α} {after : List (Run σ α)} {e : ClientError}
      (answered : ∀ r ∈ before, ∃ a, r.outcome = .ok a) (failure : run.outcome = .error e) :
      FailFast s (before ++ run :: after)
        ⟨.error e, (before ++ [run]).flatMap calls, run.state⟩

namespace FailFast

variable {s : σ} {run : Run σ α} {runs : List (Run σ α)} {batch : Run σ (List α)}

theorem first_failed {e : ClientError} (h : run.outcome = .error e) (runs : List (Run σ α)) :
    FailFast s (run :: runs) ⟨.error e, run.calls, run.state⟩ := by
  have hfailed : FailFast s ([] ++ run :: runs) ⟨.error e, ([] ++ [run]).flatMap calls, run.state⟩ :=
    .failed (fun r hr => nomatch hr) h
  simpa using hfailed

/-- An answered run in front of a batch. -/
theorem cons {a : α} (h : run.outcome = .ok a) (hbatch : FailFast run.state runs batch) :
    FailFast s (run :: runs)
      ⟨batch.outcome.map (a :: ·), run.calls ++ batch.calls, batch.state⟩ := by
  cases hbatch with
  | @answered _ answers each =>
    have hall : (run :: runs).map outcome = (a :: answers).map .ok := by
      rw [List.map_cons, List.map_cons, h, each]
    exact .answered hall
  | @failed before failing after e hanswered hfailure =>
    have hbefore : ∀ r ∈ run :: before, ∃ a, r.outcome = .ok a := by
      intro r hr
      rcases List.mem_cons.1 hr with rfl | hr
      · exact ⟨a, h⟩
      · exact hanswered r hr
    exact .failed hbefore hfailure

end FailFast

end Run

namespace Dialogue

variable {exchange : Exchange σ} {f : ι → Dialogue α}

theorem length_runEach (exchange : Exchange σ) (f : ι → Dialogue α) (items : List ι) (s : σ) :
    (runEach exchange f items s).length = items.length := by
  induction items generalizing s with
  | nil => rfl
  | cons item rest ih =>
    rw [runEach, List.length_cons, List.length_cons, ih]

theorem run_bind_of_error {d : Dialogue α} {s : σ} {e : ClientError}
    (h : (d.run exchange s).outcome = .error e) (g : α → Dialogue β) :
    (d.bind g).run exchange s = ⟨.error e, (d.run exchange s).calls, (d.run exchange s).state⟩ := by
  rw [run_bind]
  generalize d.run exchange s = run at h ⊢
  obtain ⟨outcome, calls, t⟩ := run
  cases h
  rfl

theorem run_bind_of_ok {d : Dialogue α} {s : σ} {a : α} (h : (d.run exchange s).outcome = .ok a)
    (g : α → Dialogue β) :
    (d.bind g).run exchange s =
      let rest := (g a).run exchange (d.run exchange s).state
      ⟨rest.outcome, (d.run exchange s).calls ++ rest.calls, rest.state⟩ := by
  rw [run_bind]
  generalize d.run exchange s = run at h ⊢
  obtain ⟨outcome, calls, t⟩ := run
  cases h
  rfl

/-- What is made of an answer changes neither the requests nor a failure. -/
theorem run_bind_done (exchange : Exchange σ) (d : Dialogue α) (g : α → β) (s : σ) :
    (d.bind fun a => .done (g a)).run exchange s =
      ⟨(d.run exchange s).outcome.map g, (d.run exchange s).calls, (d.run exchange s).state⟩ := by
  cases h : (d.run exchange s).outcome with
  | error e => exact run_bind_of_error h _
  | ok a =>
    simp only [run_bind_of_ok h, run_done, List.append_nil]
    rfl

/-- The run: a batch is the fail-fast composition of the runs for its items. -/
theorem failFast_mapM (exchange : Exchange σ) (f : ι → Dialogue α) (items : List ι) (s : σ) :
    Run.FailFast s (runEach exchange f items s) ((items.mapM f).run exchange s) := by
  induction items generalizing s with
  | nil => exact .answered rfl
  | cons item rest ih =>
    rw [mapM_cons_eq, runEach]
    cases hfirst : ((f item).run exchange s).outcome with
    | error e =>
      rw [run_bind_of_error hfirst]
      exact .first_failed hfirst _
    | ok a =>
      rw [run_bind_of_ok hfirst]
      simp only [run_bind_done]
      exact .cons hfirst (ih _)

end Dialogue

/-- Batches are the in-order, fail-fast composition of their single operations: one run for each
item, all answers in the order of the items, or the first failure and nothing after it. -/
theorem batches_fail_fast {σ : Type} (exchange : Exchange σ) (items : List String) (s : σ) :
    (∀ options,
      let singles := Dialogue.runEach exchange (fun address => Client.map address options none)
        items s
      singles.length = items.length ∧
        Run.FailFast s singles ((Client.mapMany items options).run exchange s)) ∧
    ∀ includeContent,
      let singles := Dialogue.runEach exchange (fun url => Client.perceive url includeContent)
        items s
      singles.length = items.length ∧
        Run.FailFast s singles ((Client.perceiveMany items includeContent).run exchange s) := by
  constructor
  · intro options singles
    exact ⟨Dialogue.length_runEach exchange _ items s, Dialogue.failFast_mapM exchange _ items s⟩
  · intro includeContent singles
    exact ⟨Dialogue.length_runEach exchange _ items s, Dialogue.failFast_mapM exchange _ items s⟩

/-- The third site is not mapped if mapping the second one fails, and its reply is left over. -/
example (report : ServiceError) :
    let script : List (Except ClientError Response) :=
      [.ok (.result .null), .ok (.error report), .ok (.result .null)]
    let run := (Client.mapMany ["a.com", "b.com", "c.com"] {}).run .scripted script
    run.calls.length = 2 ∧ run.state = [.ok (.result .null)] :=
  ⟨rfl, rfl⟩

end SiteAtlas
