import PulseMill.Controller
import PulseMill.Recorder
set_option autoImplicit false

/-!
What software may do on the bus. A conversation is one way for it to go, with any words
at all as the answers to its reads. What happens with given registers is one of the
conversations, so a law of all conversations is a law of all register files.
-/

namespace PulseMill

variable {α β σ : Type}

/-- The software may make these accesses, in this order, and return the value. -/
inductive Conversation : Drive α → List Access → α → Prop where
  | done (a : α) : Conversation (.done a) [] a
  | read {r : Register} {next : UInt32 → Drive α} {w : UInt32} {t : List Access} {a : α} :
      Conversation (next w) t a → Conversation (.ask (.read r) next) (.read r w :: t) a
  | write {r : Register} {w : UInt32} {next : Unit → Drive α} {t : List Access} {a : α} :
      Conversation (next ()) t a → Conversation (.ask (.write r w) next) (.write r w :: t) a
  | note {level : Level} {text : Unit → String} {next : Unit → Drive α} {t : List Access} {a : α} :
      Conversation (next ()) t a → Conversation (.ask (.note level text) next) t a

namespace Conversation

@[simp] theorem done_iff {a b : α} {t : List Access} :
    Conversation (.done a) t b ↔ t = [] ∧ b = a := by
  constructor
  · intro h
    cases h
    exact ⟨rfl, rfl⟩
  · intro hgiven
    obtain ⟨rfl, rfl⟩ := hgiven
    exact .done _

@[simp] theorem read_iff {r : Register} {t : List Access} {w : UInt32} :
    Conversation (Bus.read r) t w ↔ t = [.read r w] := by
  constructor
  · intro h
    cases h with
    | read h => cases h; rfl
  · intro hgiven
    obtain rfl := hgiven
    exact .read (.done _)

@[simp] theorem write_iff {r : Register} {t : List Access} {w : UInt32} {u : Unit} :
    Conversation (Bus.write r w) t u ↔ t = [.write r w] := by
  constructor
  · intro h
    cases h with
    | write h => cases h; rfl
  · intro hgiven
    obtain rfl := hgiven
    exact .write (.done _)

@[simp] theorem note_iff {level : Level} {text : Unit → String} {t : List Access} {u : Unit} :
    Conversation (Bus.note level text) t u ↔ t = [] := by
  constructor
  · intro h
    cases h with
    | note h => cases h; rfl
  · intro hgiven
    obtain rfl := hgiven
    exact .note (.done _)

theorem bind {d : Drive α} {f : α → Drive β} {t u : List Access} {a : α} {b : β}
    (hd : Conversation d t a) (hf : Conversation (f a) u b) :
    Conversation (d >>= f) (t ++ u) b := by
  induction hd with
  | done a => exact hf
  | read h ih => exact .read (ih hf)
  | write h ih => exact .write (ih hf)
  | note h ih => exact .note (ih hf)

theorem bind_iff {d : Drive α} {f : α → Drive β} {t : List Access} {b : β} :
    Conversation (d >>= f) t b ↔
      ∃ t₁ t₂ a, t = t₁ ++ t₂ ∧ Conversation d t₁ a ∧ Conversation (f a) t₂ b := by
  constructor
  · intro h
    induction d generalizing t with
    | done a => exact ⟨[], t, a, rfl, .done a, h⟩
    | ask q next ih =>
      cases q with
      | read r =>
        cases h with
        | read h =>
          obtain ⟨t₁, t₂, a, rfl, hd, hf⟩ := ih _ h
          exact ⟨_, t₂, a, rfl, .read hd, hf⟩
      | write r w =>
        cases h with
        | write h =>
          obtain ⟨t₁, t₂, a, rfl, hd, hf⟩ := ih _ h
          exact ⟨_, t₂, a, rfl, .write hd, hf⟩
      | note level text =>
        cases h with
        | note h =>
          obtain ⟨t₁, t₂, a, rfl, hd, hf⟩ := ih _ h
          exact ⟨_, t₂, a, rfl, .note hd, hf⟩
  · intro hgiven
    obtain ⟨t₁, t₂, a, rfl, hd, hf⟩ := hgiven
    exact hd.bind hf

end Conversation

namespace Controller.Attempt

theorem run_lift (d : Drive α) :
    (liftM d : Attempt α).run = d >>= fun a => .done (.ok a) := rfl

theorem run_lift_bind (d : Drive α) (f : α → Attempt β) :
    ((liftM d : Attempt α) >>= f).run = d >>= fun a => (f a).run := by
  rw [ExceptT.run_bind, run_lift]
  simp

theorem run_liftExcept (r : Except HardwareError α) : (liftM r : Attempt α).run = .done r := rfl

theorem run_pure (a : α) : (pure a : Attempt α).run = .done (.ok a) := rfl

theorem run_throw (e : HardwareError) : (throw e : Attempt α).run = .done (.error e) := rfl

theorem run_throw_bind (e : HardwareError) (f : α → Attempt β) :
    ((throw e : Attempt α) >>= f).run = .done (.error e) := rfl

theorem run_ite (c : Prop) [Decidable c] (x y : Attempt α) :
    (if c then x else y).run = if c then x.run else y.run := by
  split <;> rfl

end Controller.Attempt

namespace Conversation

open Controller (Attempt)

theorem attempt_bind_iff {x : Attempt α} {f : α → Attempt β} {t : List Access}
    {r : Except HardwareError β} :
    Conversation (x >>= f).run t r ↔
      (∃ e, r = .error e ∧ Conversation x.run t (.error e)) ∨
      ∃ t₁ t₂ a, t = t₁ ++ t₂ ∧ Conversation x.run t₁ (.ok a) ∧ Conversation (f a).run t₂ r := by
  rw [ExceptT.run_bind, bind_iff]
  constructor
  · intro h
    obtain ⟨t₁, t₂, e | a, rfl, hx, hf⟩ := h
    · obtain ⟨rfl, rfl⟩ := done_iff.1 hf
      exact .inl ⟨e, rfl, by simpa using hx⟩
    · exact .inr ⟨t₁, t₂, a, rfl, hx, hf⟩
  · intro h
    rcases h with ⟨e, rfl, hx⟩ | ⟨t₁, t₂, a, rfl, hx, hf⟩
    · exact ⟨t, [], .error e, by simp, hx, .done _⟩
    · exact ⟨t₁, t₂, .ok a, rfl, hx, hf⟩

theorem status_iff {t : List Access} {s : Status} :
    Conversation Controller.status t s ↔ t = [.read .status s.bits] := by
  rw [Controller.status, bind_iff]
  constructor
  · intro h
    obtain ⟨t₁, t₂, w, rfl, hr, hd⟩ := h
    obtain ⟨rfl, rfl⟩ := done_iff.1 hd
    simpa using hr
  · intro h
    obtain rfl := h
    exact ⟨_, [], s.bits, rfl, read_iff.2 rfl, .done _⟩

end Conversation

structure Event (σ : Type) where
  access : Access
  after : σ

def Event.From (file : RegisterFile σ) (before : σ) (e : Event σ) : Prop :=
  match e.access with
  | .read r w => file.read r before = (w, e.after)
  | .write r w => file.write r w before = e.after

namespace RegisterFile

def reply (file : RegisterFile σ) : (q : Bus.Query) → σ → Bus.Answer q × σ
  | .read r, s => file.read r s
  | .write r w, s => ((), file.write r w s)
  | .note .., s => ((), s)

/-- What the software returns, and what it leaves in the registers. -/
def outcome (file : RegisterFile σ) (d : Drive α) (s : σ) : α × σ := d.run file.reply s

def events (file : RegisterFile σ) : Drive α → σ → List (Event σ)
  | .done _, _ => []
  | .ask (.read r) next, s =>
    let (w, s) := file.read r s
    ⟨.read r w, s⟩ :: file.events (next w) s
  | .ask (.write r w) next, s =>
    let s := file.write r w s
    ⟨.write r w, s⟩ :: file.events (next ()) s
  | .ask (.note ..) next, s => file.events (next ()) s

def trace (file : RegisterFile σ) (d : Drive α) (s : σ) : List Access :=
  (file.events d s).map Event.access

def access (file : RegisterFile σ) (s : σ) : Access → σ
  | .read r _ => (file.read r s).2
  | .write r w => file.write r w s

variable {file : RegisterFile σ}

theorem run_answer (v : Verbosity) (d : Drive α) (s : σ) (log : List Line) :
    (d.run (file.answer v) (s, log)).1 = (file.outcome d s).1 ∧
      (d.run (file.answer v) (s, log)).2.1 = (file.outcome d s).2 := by
  induction d generalizing s log with
  | done a => exact ⟨rfl, rfl⟩
  | ask q next ih => cases q <;> exact ih _ _ _

theorem run_fst (v : Verbosity) (d : Drive α) (s : σ) :
    (file.run v d s).1 = (file.outcome d s).1 := (run_answer v d s []).1

theorem run_state (v : Verbosity) (d : Drive α) (s : σ) :
    (file.run v d s).2.1 = (file.outcome d s).2 := (run_answer v d s []).2

def Ends (file : RegisterFile σ) (v : Verbosity) (d : Drive α) (s : σ) (a : α) (t : σ) : Prop :=
  ∃ log, file.run v d s = (a, t, log)

theorem ends_iff {v : Verbosity} {d : Drive α} {s : σ} {a : α} {t : σ} :
    file.Ends v d s a t ↔ file.outcome d s = (a, t) := by
  have hrun : file.outcome d s = ((file.run v d s).1, (file.run v d s).2.1) :=
    Prod.ext (run_fst v d s).symm (run_state v d s).symm
  rw [hrun]
  constructor
  · rintro ⟨log, h⟩
    rw [h]
  · intro h
    obtain ⟨ha, ht⟩ := Prod.mk.inj h
    exact ⟨(file.run v d s).2.2, by rw [← ha, ← ht]⟩

@[simp] theorem outcome_done (a : α) (s : σ) : file.outcome (.done a) s = (a, s) := rfl

@[simp] theorem outcome_read (r : Register) (s : σ) :
    file.outcome (Bus.read r) s = file.read r s := rfl

@[simp] theorem outcome_write (r : Register) (w : UInt32) (s : σ) :
    file.outcome (Bus.write r w) s = ((), file.write r w s) := rfl

@[simp] theorem outcome_note (level : Level) (text : Unit → String) (s : σ) :
    file.outcome (Bus.note level text) s = ((), s) := rfl

@[simp] theorem outcome_bind (d : Drive α) (f : α → Drive β) (s : σ) :
    file.outcome (d >>= f) s = file.outcome (f (file.outcome d s).1) (file.outcome d s).2 :=
  Dialogue.run_bind ..

theorem outcome_attempt_bind (x : Controller.Attempt α) (f : α → Controller.Attempt β) (s : σ) :
    file.outcome (x >>= f).run s =
      match file.outcome x.run s with
      | (.error e, t) => (.error e, t)
      | (.ok a, t) => file.outcome (f a).run t := by
  rw [ExceptT.run_bind, outcome_bind]
  rcases file.outcome x.run s with ⟨e | a, t⟩ <;> rfl

theorem outcome_attempt_error {x : Controller.Attempt α} {e : HardwareError} {s t : σ}
    (h : file.outcome x.run s = (.error e, t)) (f : α → Controller.Attempt β) :
    file.outcome (x >>= f).run s = (.error e, t) := by
  rw [outcome_attempt_bind, h]

theorem outcome_attempt_ok {x : Controller.Attempt α} {a : α} {s t : σ}
    (h : file.outcome x.run s = (.ok a, t)) (f : α → Controller.Attempt β) :
    file.outcome (x >>= f).run s = file.outcome (f a).run t := by
  rw [outcome_attempt_bind, h]

theorem foldl_access_trace (d : Drive α) (s : σ) :
    (file.trace d s).foldl file.access s = (file.outcome d s).2 := by
  induction d generalizing s with
  | done a => rfl
  | ask q next ih =>
    cases q with
    | read r => exact ih _ _
    | write r w => exact ih _ _
    | note level text => exact ih _ _

theorem getLast?_cons_after (e : Event σ) (es : List (Event σ)) (s : σ) :
    ((e :: es).getLast?.map Event.after).getD s = (es.getLast?.map Event.after).getD e.after := by
  rw [List.getLast?_cons]
  cases es.getLast? <;> rfl

theorem outcome_state (d : Drive α) (s : σ) :
    (file.outcome d s).2 = ((file.events d s).getLast?.map Event.after).getD s := by
  induction d generalizing s with
  | done a => rfl
  | ask q next ih =>
    cases q with
    | read r =>
      rw [events, getLast?_cons_after]
      exact ih _ _
    | write r w =>
      rw [events, getLast?_cons_after]
      exact ih _ _
    | note level text => exact ih _ _

/-- What happens is one of the conversations. -/
theorem conversation_trace (d : Drive α) (s : σ) :
    Conversation d (file.trace d s) (file.outcome d s).1 := by
  induction d generalizing s with
  | done a => exact .done a
  | ask q next ih =>
    cases q with
    | read r => exact .read (ih _ _)
    | write r w => exact .write (ih _ _)
    | note level text => exact .note (ih _ _)

end RegisterFile

namespace Dialogue

/-- Whatever the answers, every question has the property. -/
def Only (P : Bus.Query → Prop) : Drive α → Prop
  | .done _ => True
  | .ask q next => P q ∧ ∀ answer, (next answer).Only P

variable {P : Bus.Query → Prop}

theorem Only.bind {d : Drive α} {f : α → Drive β} (hd : d.Only P) (hf : ∀ a, (f a).Only P) :
    (d >>= f).Only P := by
  induction d with
  | done a => exact hf a
  | ask q next ih => exact ⟨hd.1, fun answer => ih answer (hd.2 answer)⟩

theorem Only.attempt_bind {x : Controller.Attempt α} {f : α → Controller.Attempt β}
    (hx : x.run.Only P) (hf : ∀ a, (f a).run.Only P) : (x >>= f).run.Only P := by
  rw [ExceptT.run_bind]
  refine hx.bind fun r => ?_
  cases r with
  | ok a => exact hf a
  | error e => trivial

/-- What each of the questions keeps is true before and after every access, and at the end. -/
theorem Only.keeps {file : RegisterFile σ} {I : σ → Prop} {d : Drive α} (hd : d.Only P)
    (keep : ∀ q, P q → ∀ s, I s → I (file.reply q s).2) {s : σ} (hs : I s) :
    I (file.outcome d s).2 ∧
      ∀ e ∈ file.events d s, I e.after ∧ ∃ before, I before ∧ e.From file before := by
  induction d generalizing s with
  | done a => exact ⟨hs, by simp [RegisterFile.events]⟩
  | ask q next ih =>
    have hq := keep q hd.1 s hs
    have hnext := ih _ (hd.2 (file.reply q s).1) hq
    refine ⟨hnext.1, ?_⟩
    cases q with
    | read r => exact List.forall_mem_cons.2 ⟨⟨hq, s, hs, rfl⟩, hnext.2⟩
    | write r w => exact List.forall_mem_cons.2 ⟨⟨hq, s, hs, rfl⟩, hnext.2⟩
    | note level text => exact hnext.2

end Dialogue

end PulseMill
