import PulseMill.Proofs.EmergencyStop
import PulseMill.Proofs.WholeRun
set_option autoImplicit false

/-!
What a successful wait for the end says about the queue. The idle bit tells only that nothing
moves. Blocks that are queued while motion has not been enabled do not move either, so the wait
is over with its first poll, and they are still there. Where every commit enables motion, this
does not occur.
-/

namespace PulseMill

namespace Simulator

open Access

variable {s t : Simulator}

theorem foldl_access_motion {t : List Access} (ht : writes t = []) :
    SameMotion s (t.foldl file.access s) := by
  induction t generalizing s with
  | nil => exact ⟨rfl, rfl⟩
  | cons a t ih =>
    cases a with
    | read r w =>
      obtain ⟨hrunning, hstop⟩ := read_motion r s
      obtain ⟨hrunning', hstop'⟩ := ih (s := (read r s).2) ht
      exact ⟨hrunning'.trans hrunning, hstop'.trans hstop⟩
    | write r w => cases ht

theorem awaitIdle_motion (cfg : Controller.Settings) (s : Simulator) :
    SameMotion s (file.outcome (Controller.awaitIdle cfg).run s).2 := by
  have hreads := (poll_law (file.conversation_trace (Controller.awaitIdle cfg).run s)).1
  rw [← file.foldl_access_trace]
  exact foldl_access_motion hreads

theorem isBusy_of_awaitIdle_ok {cfg : Controller.Settings} {st : Status} (h : s.fault = none)
    (hok : (file.outcome (Controller.awaitIdle cfg).run s).1 = .ok st) :
    (file.outcome (Controller.awaitIdle cfg).run s).2.isBusy = false := by
  obtain ⟨-, hlast, -⟩ := poll_law (file.conversation_trace (Controller.awaitIdle cfg).run s)
  obtain ⟨hends, hidle, -, -⟩ := hlast st hok
  have hbits : st = ⟨(file.outcome (Controller.awaitIdle cfg).run s).2.statusBits⟩ :=
    congrArg Status.mk (bits_of_endsWith (quiet_harmless.poll_only ..) h hends)
  rw [hbits] at hidle
  simpa using hidle

theorem awaitIdle_ok_of_running {cfg : Controller.Settings} {st : Status} (h : s.fault = none)
    (hrunning : s.running = true)
    (hok : (file.outcome (Controller.awaitIdle cfg).run s).1 = .ok st) :
    let left := (file.outcome (Controller.awaitIdle cfg).run s).2
    left.queue = [] ∧ left.retired = s.retired + s.queue.length := by
  intro left
  have hidle : left.isBusy = false := isBusy_of_awaitIdle_ok h hok
  have hmotion : left.running = true := (awaitIdle_motion cfg s).1.trans hrunning
  have hqueue : left.queue = [] := by
    rw [isBusy, hmotion] at hidle
    simpa using hidle
  have hmoves : Moves s [] left := quiet_moves (quiet_harmless.poll_only ..) h
  obtain ⟨gone, hgone, hretired⟩ := hmoves.queue
  have hall : s.queue = gone := by simpa [hqueue] using hgone
  exact ⟨hqueue, by rw [hall, hretired]⟩

theorem outcome_awaitIdle_of_not_running (h : s.fault = none) (hrunning : s.running = false)
    (cfg : Controller.Settings) :
    file.outcome (Controller.awaitIdle cfg).run s =
      (Controller.checkStatus ⟨s.statusBits⟩, s) := by
  have hidle : s.isBusy = false := by simp [isBusy, hrunning]
  have hstill : s.Still := ⟨h, hidle⟩
  rw [Controller.awaitIdle, Controller.pollUntil, hstill.outcome_poll, verdict,
    Controller.checkStatus, isIdle_statusBits, hidle]
  rfl

def Prompt : Bus.Query → Prop
  | .write .command w => asks w Command.commit → asks w Command.enable
  | _ => True

theorem prompt_of_no_commit {w : UInt32} (h : asks w Command.commit = false) :
    Prompt (.write .command w) := fun hcommit => by simp [h] at hcommit

theorem prompt_harmless : Harmless Prompt where
  read _ := trivial
  note _ _ := trivial
  write r _ h := by cases r <;> first | contradiction | trivial
  zero := prompt_of_no_commit rfl

/-- No block is held back for any other reason than a stop. -/
def Unheld (s : Simulator) : Prop := s.queue = [] ∨ s.running = true ∨ s.emergency = true

theorem Unheld.drain (h : s.Unheld) (n : Nat) : (s.drain n).Unheld := by
  rw [drain_eq]
  rcases h with hqueue | hmotion
  · exact .inl (by simp [hqueue])
  · exact .inr hmotion

theorem Unheld.command {w : UInt32} (h : s.Unheld)
    (hw : asks w Command.commit → asks w Command.enable) : (s.command w).Unheld := by
  rw [command_law]
  cases hstops : s.stopsAt w with
  | true => exact .inr (.inr rfl)
  | false =>
    cases henable : asks w Command.enable with
    | true => exact .inr (.inl (by simp))
    | false =>
      -- Nothing is committed, and what is left in the queue was there before.
      have hcommit : asks w Command.commit = false := by simpa [henable] using hw
      have haccepts : s.accepts w = false := by simp [accepts, commits, hcommit]
      cases hreset : asks w Command.reset with
      | true => exact .inl (by simp [kept, hreset, haccepts])
      | false =>
        obtain ⟨hstop, hasks⟩ : s.emergency = false ∧ asks w Command.stop = false := by
          simpa [stopsAt, hreset] using hstops
        rcases h with hqueue | hrunning | hlatched
        · exact .inl (by simp [kept, hreset, haccepts, hqueue])
        · exact .inr (.inl (by simp [hrunning, hasks]))
        · simp [hstop] at hlatched

theorem Unheld.reply {q : Bus.Query} (hq : Prompt q) (hfault : s.fault = none) (h : s.Unheld) :
    (file.reply q s).2.Unheld := by
  cases q with
  | note level text => exact h
  | read r =>
    change (read r s).2.Unheld
    rw [read_state]
    exact h.drain _
  | write r w =>
    change (write r w s).Unheld
    by_cases hr : r = .command
    · subst hr
      rw [write_command hfault]
      exact h.command hq
    · rcases write_of_ne (w := w) hfault hr with hw | hw <;> rw [hw]
      · exact h
      · exact h

theorem Unheld.awaitIdle_ok {cfg : Controller.Settings} {st : Status} (h : s.Unheld)
    (hfault : s.fault = none)
    (hok : (file.outcome (Controller.awaitIdle cfg).run s).1 = .ok st) :
    (file.outcome (Controller.awaitIdle cfg).run s).2.queue = [] := by
  cases hrunning : s.running with
  | true => exact (awaitIdle_ok_of_running hfault hrunning hok).1
  | false =>
    rw [outcome_awaitIdle_of_not_running hfault hrunning] at hok ⊢
    have hstop : s.emergency = false := by
      cases hstop : s.emergency with
      | false => rfl
      | true =>
        rw [Controller.checkStatus, isStopped_statusBits, hstop] at hok
        cases hok
    simpa [Unheld, hrunning, hstop] using h

theorem reply_fault (q : Bus.Query) (s : Simulator) : (file.reply q s).2.fault = s.fault := by
  cases q with
  | note level text => rfl
  | read r => exact s.react_fault (.read r)
  | write r w => exact s.react_fault (.write r w)

end Simulator

open Simulator (Prompt Unheld asks)

variable {acts : List Action} {act : Action} {cfg : Controller.Settings} {b : Bench} {st : Status}

/-- Each commit enables motion, and the wiring stays as it is. -/
def Action.Prompt (cfg : Controller.Settings) : Action → Prop
  | .operate (.load _ start) => start = true
  | .operate .execute => cfg.startOnCommit = true
  | .operate (.write .command w) => asks w Command.commit → asks w Command.enable
  | .setFault _ => False
  | _ => True

theorem Operation.drive_prompt {op : Operation} (h : (Action.operate op).Prompt cfg)
    (v : Verbosity) (a : BlockArray Block) : (op.drive cfg v a).Only Prompt := by
  by_cases hreset : op = .reset
  · subst hreset
    exact (Harmless.write_only (Simulator.prompt_of_no_commit rfl)).bind fun _ => trivial
  · refine drive_only Simulator.prompt_harmless (Simulator.prompt_of_no_commit rfl)
      (Simulator.prompt_of_no_commit rfl) (Simulator.prompt_of_no_commit rfl) ?_ hreset ?_ v a
    · intro start hstart
      have hon : start = true := by cases op <;> simp_all [commitStart, Action.Prompt]
      subst hon
      exact Harmless.write_only fun _ => rfl
    · intro r w hgiven
      obtain rfl := hgiven
      cases r <;> exact h

theorem Action.effect_unheld (hact : act.Prompt cfg) (hfault : b.sim.fault = none)
    (h : b.sim.Unheld) (v : Verbosity) :
    (act.effect cfg v b).sim.fault = none ∧ (act.effect cfg v b).sim.Unheld := by
  cases act with
  | operate op =>
    rw [effect_operate]
    exact ((op.drive_prompt hact v b.blocks).keeps (I := fun s => s.fault = none ∧ s.Unheld)
      (fun q hq s hs => ⟨(Simulator.reply_fault q s).trans hs.1, hs.2.reply hq hs.1⟩)
      ⟨hfault, h⟩).1
  | drain n => exact ⟨(b.sim.drain_moves n).fault.trans hfault, h.drain n⟩
  | trip => exact ⟨hfault, .inr (.inr rfl)⟩
  | setFault fault => exact hact.elim
  | setAutoDrain | forceError | setWord | setInput | mount => exact ⟨hfault, h⟩

theorem Bench.run_unheld (hacts : ∀ act ∈ acts, act.Prompt cfg) (hfault : b.sim.fault = none)
    (h : b.sim.Unheld) (v : Verbosity) :
    (run cfg v acts b).sim.fault = none ∧ (run cfg v acts b).sim.Unheld := by
  induction acts generalizing b with
  | nil => exact ⟨hfault, h⟩
  | cons act acts ih =>
    obtain ⟨hact, hmore⟩ := List.forall_mem_cons.1 hacts
    obtain ⟨hfault', h'⟩ := act.effect_unheld hact hfault h v
    exact ih hmore hfault' h'

/-- Where each commit enables motion, a wait that succeeds leaves nothing in the queue. -/
theorem awaitIdle_drains_of_prompt (hacts : ∀ act ∈ acts, act.Prompt cfg)
    (hfault : b.sim.fault = none) (h : b.sim.Unheld) (v : Verbosity) :
    let s := (Bench.run cfg v acts b).sim
    (Simulator.file.run v (Controller.awaitIdle cfg).run s).1 = .ok st →
      (Simulator.file.run v (Controller.awaitIdle cfg).run s).2.1.queue = [] := by
  intro s hok
  obtain ⟨hs, hunheld⟩ := Bench.run_unheld hacts hfault h v
  rw [Simulator.file.run_fst] at hok
  rw [Simulator.file.run_state]
  exact hunheld.awaitIdle_ok hs hok

/-- A wait that succeeds leaves the queue empty just where motion is enabled, nothing is queued,
or a stop or an error does not let it succeed. In motion all that was queued has retired. Without
motion the wait ends with its first poll, and whatever is queued stays. -/
theorem awaitIdle_drains_iff (cfg : Controller.Settings) (v : Verbosity) (s : Simulator)
    (hfault : s.fault = none) :
    let ended := Simulator.file.run v (Controller.awaitIdle cfg).run s
    ((∀ st, ended.1 = .ok st → ended.2.1.queue = []) ↔
      s.running = true ∨ s.queue = [] ∨ s.emergency = true ∨ s.forcedError = true ∨
        s.overflow = true) ∧
    (s.running = true → ∀ st, ended.1 = .ok st →
      ended.2.1.queue = [] ∧ ended.2.1.retired = s.retired + s.queue.length) ∧
    (s.running = false →
      ended.1 = Controller.checkStatus ⟨s.statusBits⟩ ∧ ended.2.1 = s) := by
  intro ended
  have hfst : ended.1 = _ := Simulator.file.run_fst v (Controller.awaitIdle cfg).run s
  have hstate : ended.2.1 = _ := Simulator.file.run_state v (Controller.awaitIdle cfg).run s
  rw [hfst, hstate]
  have hmoving (hrunning : s.running = true) (st : Status)
      (hok : (Simulator.file.outcome (Controller.awaitIdle cfg).run s).1 = .ok st) :=
    Simulator.awaitIdle_ok_of_running hfault hrunning hok
  have hheld (hrunning : s.running = false) :=
    Simulator.outcome_awaitIdle_of_not_running hfault hrunning cfg
  refine ⟨?_, hmoving, fun hrunning => by rw [hheld hrunning]; exact ⟨rfl, rfl⟩⟩
  cases hrunning : s.running with
  | true => simpa using fun st hok => (hmoving hrunning st hok).1
  | false =>
    rw [hheld hrunning, Controller.checkStatus, Simulator.isStopped_statusBits,
      Simulator.isError_statusBits]
    cases s.emergency <;> cases s.forcedError <;> cases s.overflow <;> simp

/-- A block in motion is waited for. -/
theorem awaitIdle_drains_started_block :
    let s := Simulator.write .command (Command.commit ||| Command.enable) {}
    let ended := Simulator.file.run .off (Controller.awaitIdle {}).run s
    s.queue.length = 1 ∧ ended.1.toOption.isSome ∧ ended.2.1.queue = [] ∧
      ended.2.1.retired = 1 := by
  intro s ended
  have hqueue : s.queue.length = 1 := by decide
  have hok : ended.1.toOption.isSome := by decide
  cases hst : ended.1 with
  | error e =>
    rw [hst] at hok
    cases hok
  | ok st =>
    obtain ⟨hleft, hretired⟩ := (awaitIdle_drains_iff {} .off s rfl).2.1 rfl st hst
    exact ⟨hqueue, rfl, hleft, hretired.trans (by rw [hqueue]; rfl)⟩

/-- Not so after a commit that does not enable motion. -/
theorem not_forall_awaitIdle_drains :
    ¬ ∀ (depth : Nat) (cfg : Controller.Settings) (v : Verbosity) (acts : List Action),
      let s := (Bench.run cfg v acts ⟨Simulator.fresh depth, .empty⟩).sim
      let ended := Simulator.file.run v (Controller.awaitIdle cfg).run s
      s.fault = none → ∀ st, ended.1 = .ok st → ended.2.1.queue = [] := by
  intro h
  let block : Block := { x := { instruction := 1, rate := 100, count := 16, width := 4 } }
  let cfg : Controller.Settings := { startOnCommit := false, pollLimit := 5 }
  let s := (Bench.run cfg .off [.operate (.load block false)] ⟨Simulator.fresh 4, .empty⟩).sim
  have hfault : s.fault = none := by decide
  have hrunning : s.running = false := by decide
  have hqueue : s.queue.length = 1 := by decide
  have hwait := Simulator.outcome_awaitIdle_of_not_running hfault hrunning cfg
  have hok : Controller.checkStatus ⟨s.statusBits⟩ = .ok ⟨s.statusBits⟩ := by
    rw [Controller.checkStatus, if_neg (by decide), if_neg (by decide)]
  have hempty := h 4 cfg .off [.operate (.load block false)] hfault _
    ((Simulator.file.run_fst ..).trans ((congrArg Prod.fst hwait).trans hok))
  rw [Simulator.file.run_state, hwait] at hempty
  rw [hempty] at hqueue
  cases hqueue

end PulseMill
