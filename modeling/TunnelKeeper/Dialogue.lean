/-!
# Dialogues — programs that ask their surroundings

A dialogue either is done or asks a question and goes on with the answer.  What the questions mean
is left open: the same dialogue can be run against a store of answers (`Dialogue.run`), against a
script, or side by side with other dialogues that share a state.
-/

namespace TunnelKeeper

/-- A program that asks questions, each of them with a type of answers of its own. -/
inductive Dialogue (Ask : Type) (Answer : Ask → Type) (α : Type) : Type where
  | done (result : α)
  | ask (question : Ask) (next : Answer question → Dialogue Ask Answer α)

namespace Dialogue

variable {Ask : Type} {Answer : Ask → Type} {α β γ σ : Type}

/-- Goes on with the result of a dialogue. -/
def bind (d : Dialogue Ask Answer α) (f : α → Dialogue Ask Answer β) : Dialogue Ask Answer β :=
  match d with
  | done a => f a
  | ask q next => ask q fun a => (next a).bind f

instance : Monad (Dialogue Ask Answer) where
  pure := done
  bind := bind

/-- The dialogue that asks one question. -/
def question (q : Ask) : Dialogue Ask Answer (Answer q) := ask q done

/-- Runs a dialogue against a state that answers. -/
def run (respond : σ → (q : Ask) → Answer q × σ) : σ → Dialogue Ask Answer α → α × σ
  | s, done a => (a, s)
  | s, ask q next =>
    let (a, s) := respond s q
    run respond s (next a)

@[simp] theorem done_bind (a : α) (f : α → Dialogue Ask Answer β) :
    (done a).bind f = f a := rfl

@[simp] theorem ask_bind (q : Ask) (next : Answer q → Dialogue Ask Answer α)
    (f : α → Dialogue Ask Answer β) :
    (ask q next).bind f = ask q fun a => (next a).bind f := rfl

theorem bind_assoc (d : Dialogue Ask Answer α) (f : α → Dialogue Ask Answer β)
    (g : β → Dialogue Ask Answer γ) : (d.bind f).bind g = d.bind fun a => (f a).bind g := by
  induction d with
  | done a => rfl
  | ask q next ih => simp [ih]

theorem run_bind (respond : σ → (q : Ask) → Answer q × σ) (s : σ) (d : Dialogue Ask Answer α)
    (f : α → Dialogue Ask Answer β) :
    run respond s (d.bind f) = run respond (run respond s d).2 (f (run respond s d).1) := by
  induction d generalizing s with
  | done a => rfl
  | ask q next ih => simp [run, ih]

end Dialogue

end TunnelKeeper
