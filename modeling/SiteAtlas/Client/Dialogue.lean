import SiteAtlas.Error.ClientError

/-!
Dialogues with the service: a value, an error, or a request together with what to do with the
response. A dialogue is run over an exchange, which answers requests and may change its state. An
error of the exchange ends the dialogue.

Main statement: the calls of a sequence of two dialogues are the calls of the first one, followed by
those of the second one if the first succeeds.
-/
namespace SiteAtlas

abbrev Call := Method × Json

/-- Something that answers requests. An error is a failure of the channel itself; what the service
reports is a response. -/
abbrev Exchange (σ : Type) := Call → σ → Except ClientError Response × σ

inductive Dialogue (α : Type) where
  | done (value : α)
  | fail (error : ClientError)
  | ask (call : Call) (next : Response → Dialogue α)

/-- What a dialogue came to: its outcome, the requests made, and the exchange's last state. -/
structure Run (σ α : Type) where
  outcome : Except ClientError α
  calls : List Call
  state : σ

namespace Dialogue

variable {σ α β : Type}

def bind (d : Dialogue α) (f : α → Dialogue β) : Dialogue β :=
  match d with
  | .done a => f a
  | .fail e => .fail e
  | .ask call next => .ask call fun response => bind (next response) f

instance : Monad Dialogue where
  pure := .done
  bind := bind

def ofExcept : Except ClientError α → Dialogue α
  | .ok a => .done a
  | .error e => .fail e

def accept : Except Rejection α → Dialogue α
  | .ok a => .done a
  | .error why => .fail (.rejected why)

def run (exchange : Exchange σ) : Dialogue α → σ → Run σ α
  | .done a, s => ⟨.ok a, [], s⟩
  | .fail e, s => ⟨.error e, [], s⟩
  | .ask call next, s =>
    match exchange call s with
    | (.error e, s) => ⟨.error e, [call], s⟩
    | (.ok response, s) =>
      let rest := run exchange (next response) s
      ⟨rest.outcome, call :: rest.calls, rest.state⟩

@[simp] theorem run_done (exchange : Exchange σ) (a : α) (s : σ) :
    (Dialogue.done a).run exchange s = ⟨.ok a, [], s⟩ := rfl

@[simp] theorem run_fail (exchange : Exchange σ) (e : ClientError) (s : σ) :
    (Dialogue.fail e : Dialogue α).run exchange s = ⟨.error e, [], s⟩ := rfl

/-- Two dialogues in sequence: an error of the first one is final. -/
theorem run_bind (exchange : Exchange σ) (d : Dialogue α) (f : α → Dialogue β) (s : σ) :
    (d.bind f).run exchange s =
      match d.run exchange s with
      | ⟨.ok a, calls, s⟩ =>
        let rest := (f a).run exchange s
        ⟨rest.outcome, calls ++ rest.calls, rest.state⟩
      | ⟨.error e, calls, s⟩ => ⟨.error e, calls, s⟩ := by
  induction d generalizing s with
  | done a => rfl
  | fail e => rfl
  | ask call next ih =>
    simp only [bind, run]
    cases exchange call s with
    | mk answer s =>
      cases answer with
      | error e => rfl
      | ok response =>
        simp only [ih]
        cases (next response).run exchange s with
        | mk outcome calls s => cases outcome <;> rfl

end Dialogue

/-- Replies given in advance, taken one after another. -/
def Exchange.scripted : Exchange (List (Except ClientError Response))
  | call, [] => (.error (.malformed (.stated s!"no scripted reply for {call.1.name}")), [])
  | _, reply :: rest => (reply, rest)

end SiteAtlas
