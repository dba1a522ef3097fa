set_option autoImplicit false

/-!
Dialogues: programs that ask questions of their surroundings and go on with the
answers. `A q` is the type of the answers to the question `q`. What a dialogue does
is settled only by who answers it.
-/

namespace PulseMill

inductive Dialogue {Q : Type} (A : Q → Type) (α : Type) where
  | done (value : α)
  | ask (q : Q) (next : A q → Dialogue A α)

namespace Dialogue

variable {Q P σ : Type} {A : Q → Type} {B : P → Type} {α β : Type}

def bind : Dialogue A α → (α → Dialogue A β) → Dialogue A β
  | done a, f => f a
  | ask q next, f => ask q fun answer => (next answer).bind f

instance : Monad (Dialogue A) where
  pure := done
  bind := bind

def question (q : Q) : Dialogue A (A q) := ask q done

@[simp] theorem pure_eq (a : α) : (pure a : Dialogue A α) = done a := rfl

@[simp] theorem done_bind (a : α) (f : α → Dialogue A β) : (done a >>= f) = f a := rfl

@[simp] theorem ask_bind (q : Q) (next : A q → Dialogue A α) (f : α → Dialogue A β) :
    (ask q next >>= f) = ask q fun answer => next answer >>= f := rfl

theorem bind_done (d : Dialogue A α) : d.bind done = d := by
  induction d with
  | done a => rfl
  | ask q next ih => simp [bind, ih]

theorem bind_assoc {γ : Type} (d : Dialogue A α) (f : α → Dialogue A β) (g : β → Dialogue A γ) :
    (d.bind f).bind g = d.bind fun a => (f a).bind g := by
  induction d with
  | done a => rfl
  | ask q next ih => simp [bind, ih]

instance : LawfulMonad (Dialogue A) :=
  LawfulMonad.mk' _ bind_done (fun _ _ => rfl) bind_assoc

def run (answer : (q : Q) → σ → A q × σ) : Dialogue A α → σ → α × σ
  | done a, s => (a, s)
  | ask q next, s =>
    let (reply, s) := answer q s
    (next reply).run answer s

@[simp] theorem run_done (answer : (q : Q) → σ → A q × σ) (a : α) (s : σ) :
    (done a).run answer s = (a, s) := rfl

theorem run_ask (answer : (q : Q) → σ → A q × σ) (q : Q) (next : A q → Dialogue A α) (s : σ) :
    (ask q next).run answer s = (next (answer q s).1).run answer (answer q s).2 := rfl

@[simp] theorem run_question (answer : (q : Q) → σ → A q × σ) (q : Q) (s : σ) :
    (question q).run answer s = answer q s := rfl

@[simp] theorem run_bind (answer : (q : Q) → σ → A q × σ) (d : Dialogue A α)
    (f : α → Dialogue A β) (s : σ) :
    (d >>= f).run answer s = (f (d.run answer s).1).run answer (d.run answer s).2 := by
  induction d generalizing s with
  | done a => rfl
  | ask q next ih => simpa [run_ask] using ih _ _

def interpret {m : Type → Type} [Monad m] (answer : (q : Q) → m (A q)) : Dialogue A α → m α
  | done a => pure a
  | ask q next => do (next (← answer q)).interpret answer

/-- Every question replaced by a dialogue that finds the answer. -/
def expand (h : (q : Q) → Dialogue B (A q)) : Dialogue A α → Dialogue B α
  | done a => done a
  | ask q next => (h q).bind fun answer => (next answer).expand h

end Dialogue

end PulseMill
