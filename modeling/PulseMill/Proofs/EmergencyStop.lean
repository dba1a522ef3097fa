import Mathlib.Algebra.GroupWithZero.Nat
import PulseMill.Proofs.Operation
import PulseMill.Proofs.SimulatorRun
import PulseMill.Proofs.Standstill
set_option autoImplicit false

namespace PulseMill

open Controller (Settings)

namespace Simulator

variable {s t : Simulator} {α : Type}

/-- What can become of a simulator, on the bus and by its surroundings. -/
inductive Reachable : Simulator → Prop where
  | start : Reachable {}
  | withDepth {s : Simulator} (depth : Nat) : Reachable s → Reachable (s.withDepth depth)
  | read {s : Simulator} (r : Register) : Reachable s → Reachable (read r s).2
  | write {s : Simulator} (r : Register) (w : UInt32) : Reachable s → Reachable (write r w s)
  | drain {s : Simulator} (n : Nat) : Reachable s → Reachable (s.drain n)
  | setAutoDrain {s : Simulator} (on : Bool) : Reachable s → Reachable (s.setAutoDrain on)
  | setFault {s : Simulator} (fault : Option DecoderFault) :
      Reachable s → Reachable (s.setFault fault)
  | forceError {s : Simulator} (on : Bool) : Reachable s → Reachable (s.forceError on)
  | trip {s : Simulator} : Reachable s → Reachable s.trip
  | setWord {s : Simulator} (r : Register) (w : UInt32) :
      Reachable s → Reachable (s.setWord r w)

def SameMotion (s t : Simulator) : Prop := t.running = s.running ∧ t.emergency = s.emergency

theorem drain_motion (s : Simulator) (n : Nat) : SameMotion s (s.drain n) := by
  rw [drain_eq]
  exact ⟨rfl, rfl⟩

theorem read_motion (r : Register) (s : Simulator) : SameMotion s (read r s).2 := by
  rw [read_state]
  exact s.drain_motion _

def Exclusive (s : Simulator) : Prop := s.emergency = true → s.running = false

theorem SameMotion.exclusive (h : SameMotion s t) (hs : s.Exclusive) : t.Exclusive :=
  fun ht => h.1.trans (hs (h.2.symm.trans ht))

theorem command_exclusive (h : s.Exclusive) (w : UInt32) : (s.command w).Exclusive :=
  command_apart h w

theorem write_exclusive (h : s.Exclusive) (r : Register) (w : UInt32) :
    (write r w s).Exclusive := by
  unfold write
  cases s.resolve r <;> first | exact command_exclusive h w | exact h

theorem Reachable.exclusive (h : Reachable s) : s.Exclusive := by
  induction h with
  | start => exact fun _ => rfl
  | withDepth depth _ ih => exact ih
  | read r _ ih => exact (read_motion r _).exclusive ih
  | write r w _ ih => exact write_exclusive ih r w
  | drain n _ ih => exact (drain_motion _ n).exclusive ih
  | setAutoDrain on _ ih => exact ih
  | setFault fault _ ih => exact ih
  | forceError on _ ih => exact ih
  | trip _ _ => exact fun _ => rfl
  | setWord r w _ ih => exact ih

/-- Latched, without a wiring fault. -/
structure Halted (s : Simulator) : Prop where
  stop : s.emergency = true
  running : s.running = false
  fault : s.fault = none

def NoReset : Bus.Query → Prop
  | .write .command w => w &&& Command.reset = 0
  | _ => True

theorem noReset_harmless : Harmless NoReset where
  read _ := trivial
  note _ _ := trivial
  write r _ h := by cases r <;> first | contradiction | trivial
  zero := rfl

theorem Halted.still (h : s.Halted) : s.Still := ⟨h.fault, by simp [isBusy, h.running]⟩

theorem Halted.read (h : s.Halted) (r : Register) : (read r s).2 = s := by
  by_cases hr : r = .status
  · rw [hr, read_status h.fault, h.still.readStatus]
  · rw [read_of_ne h.fault hr]

theorem Halted.command {w : UInt32} (h : s.Halted) (hw : w &&& Command.reset = 0) :
    ∃ words sticky, s.command w = { s with words, sticky } := by
  have hreset : asks w Command.reset = false := asks_of_eq_zero hw
  have hstops : s.stopsAt w = true := by simp [stopsAt, h.stop, hreset]
  refine ⟨s.words.put .command w, s.sticky && !asks w Command.clearSticky, ?_⟩
  simp [command_law, accepts, commits, kept, hstops, hreset, h.stop, h.running]

theorem Halted.reply {q : Bus.Query} (h : s.Halted) (hq : NoReset q) :
    ∃ words sticky, (file.reply q s).2 = { s with words, sticky } := by
  cases q with
  | note level text => exact ⟨s.words, s.sticky, rfl⟩
  | read r => exact ⟨s.words, s.sticky, h.read r⟩
  | write r w =>
    change ∃ words sticky, Simulator.write r w s = { s with words, sticky }
    by_cases hr : r = .command
    · subst hr
      rw [write_command h.fault]
      exact h.command hq
    · rcases write_of_ne (w := w) h.fault hr with hw | hw <;> rw [hw]
      · exact ⟨s.words, s.sticky, rfl⟩
      · exact ⟨_, s.sticky, rfl⟩

def refusal (cfg : Settings) (s : Simulator) : HardwareError :=
  if cfg.checkOnStage && Status.isError ⟨s.statusBits⟩ then .fault ⟨s.statusBits⟩
  else .emergencyStop ⟨s.statusBits⟩

theorem Halted.outcome_checkedStatus (h : s.Halted) :
    file.outcome Controller.checkedStatus.run s = (.error (.emergencyStop ⟨s.statusBits⟩), s) := by
  rw [h.still.outcome_checkedStatus, Controller.checkStatus, isStopped_statusBits, h.stop,
    if_pos rfl]

theorem Halted.outcome_enableMotion (h : s.Halted) :
    (file.outcome Controller.enableMotion.run s).1 =
      .error (.emergencyStop ⟨(file.write .command Command.enable s).statusBits⟩) := by
  obtain ⟨words, sticky, hw⟩ := h.command (w := Command.enable) rfl
  have hwrite : file.write .command Command.enable s = { s with words, sticky } :=
    (write_command h.fault _).trans hw
  have hnext : Halted { s with words, sticky } := ⟨h.stop, h.running, h.fault⟩
  simp only [Controller.enableMotion, Controller.Attempt.run_lift_bind,
    RegisterFile.outcome_bind, RegisterFile.outcome_write, hwrite, hnext.outcome_checkedStatus]

theorem Halted.outcome_poll (h : s.Halted) (ready : Status → Bool) (made more : Nat) :
    file.outcome (Controller.poll ready made more).run s =
      (.error (.emergencyStop ⟨s.statusBits⟩), s) := by
  rw [h.still.outcome_poll, verdict, isStopped_statusBits, h.stop, if_pos rfl]

theorem Halted.outcome_stage (h : s.Halted) (cfg : Settings) (b : Block) :
    ∃ words, file.outcome (Controller.stage cfg b).run s =
        (.error (refusal cfg s), { s with words }) ∨
      file.outcome (Controller.stage cfg b).run s = (.ok (), { s with words }) ∧
        refusal cfg s = .emergencyStop ⟨s.statusBits⟩ := by
  rw [refusal, isError_statusBits]
  cases hcheck : noticesError cfg s with
  | true =>
    have hrefused : (cfg.checkOnStage && (s.forcedError || s.overflow)) = true := hcheck
    rw [if_pos hrefused]
    exact ⟨_, .inl (h.still.outcome_stage_error hcheck b)⟩
  | false =>
    have hunnoticed : (cfg.checkOnStage && (s.forcedError || s.overflow)) = false := hcheck
    rw [if_neg (by simp [hunnoticed])]
    exact ⟨_, .inr ⟨h.still.outcome_stage hcheck b, rfl⟩⟩

theorem Halted.outcome_block {α : Type} (h : s.Halted) (cfg : Settings) (b : Block)
    (f : Status → Controller.Attempt α) :
    ∃ words, file.outcome
        (Controller.stage cfg b >>= fun _ => Controller.awaitRoom cfg >>= f).run s =
      (.error (refusal cfg s), { s with words }) := by
  obtain ⟨words, hstage | ⟨hstage, hrefusal⟩⟩ := h.outcome_stage cfg b
  · exact ⟨words, RegisterFile.outcome_attempt_error hstage _⟩
  · have hstaged : Halted { s with words } := ⟨h.stop, h.running, h.fault⟩
    have hwait : file.outcome (Controller.awaitRoom cfg).run { s with words } =
        (.error (.emergencyStop ⟨s.statusBits⟩), { s with words }) := hstaged.outcome_poll ..
    refine ⟨words, (RegisterFile.outcome_attempt_ok hstage _).trans ?_⟩
    rw [hrefusal]
    exact RegisterFile.outcome_attempt_error hwait _

theorem Halted.outcome_load (h : s.Halted) (cfg : Settings) (b : Block) (start : Bool) :
    (file.outcome (Controller.load cfg b start).run s).1 = .error (refusal cfg s) := by
  rw [Controller.load]
  obtain ⟨words, hrefused⟩ := h.outcome_block cfg b _
  rw [hrefused]

theorem Halted.outcome_execute {a : BlockArray Block} {b : Block} (h : s.Halted) (cfg : Settings)
    (ha : a.peek? = some b) :
    (file.outcome (Controller.execute cfg a) s).1 = (.error (refusal cfg s), a) := by
  obtain ⟨words, hprepare⟩ : ∃ words, file.outcome (Controller.prepare cfg b).run s =
      (.error (refusal cfg s), { s with words }) := h.outcome_block cfg b _
  obtain ⟨more, hrest⟩ : ∃ more, a.rest = b :: more := by
    rw [a.peek?_eq_head?] at ha
    exact List.head?_eq_some_iff.1 ha
  have hdeliver : file.outcome (Controller.deliver cfg 0 a.rest) s =
      ((0, .error (refusal cfg s)), { s with words }) := by
    rw [hrest, Controller.deliver, RegisterFile.outcome_bind, hprepare]
    rfl
  rw [Controller.execute, RegisterFile.outcome_bind, hdeliver]
  rfl

theorem queue_drain (s : Simulator) (n : Nat) :
    (s.drain n).queue = s.queue.drop n ∧ (s.drain n).committed = s.committed ∧
      (s.drain n).fault = s.fault := by
  rw [drain_eq]
  exact ⟨rfl, rfl, rfl⟩

/-- The stop is still latched, and `n` blocks have been taken from the queue. -/
structure Held (s : Simulator) (n : Nat) (t : Simulator) : Prop where
  halted : t.Halted
  committed : t.committed = s.committed
  queue : t.queue = s.queue.drop n

theorem Held.trans {u : Simulator} {m n : Nat} (h : Held s m t) (k : Held t n u) :
    Held s (m + n) u :=
  ⟨k.halted, k.committed.trans h.committed, by rw [k.queue, h.queue, List.drop_drop]⟩

theorem Held.reply {q : Bus.Query} (h : Held s 0 t) (hq : NoReset q) :
    Held s 0 (file.reply q t).2 := by
  obtain ⟨words, sticky, hreply⟩ := h.halted.reply hq
  rw [hreply]
  exact ⟨⟨h.halted.stop, h.halted.running, h.halted.fault⟩, h.committed, h.queue⟩

theorem Halted.held (h : s.Halted) : Held s 0 s := ⟨h, rfl, rfl⟩

theorem Held.isStopped (h : Held s 0 t) : Status.isStopped ⟨t.statusBits⟩ = true := by
  rw [isStopped_statusBits, h.halted.stop]

end Simulator

open Simulator (Held Halted Reachable refusal NoReset)

/-- Neither a reset nor a fault of the wiring. -/
def Action.KeepsStop : Action → Prop
  | .operate .reset | .setFault _ => False
  | .operate (.write .command w) => w &&& Command.reset = 0
  | _ => True

def Action.drained : Action → Nat
  | .drain n => n
  | _ => 0

theorem Operation.drive_noReset {op : Operation} (h : (Action.operate op).KeepsStop)
    (cfg : Settings) (v : Verbosity) (a : BlockArray Block) : (op.drive cfg v a).Only NoReset := by
  refine drive_only Simulator.noReset_harmless rfl rfl rfl ?_ ?_ ?_ v a
  · intro start _
    refine Harmless.write_only ?_
    cases start <;> rfl
  · intro hgiven
    obtain rfl := hgiven
    exact h
  · intro r w hgiven
    obtain rfl := hgiven
    cases r <;> exact h

theorem Action.effect_held {act : Action} {b : Bench} (hact : act.KeepsStop) (h : b.sim.Halted)
    (cfg : Settings) (v : Verbosity) : Held b.sim act.drained (act.effect cfg v b).sim := by
  cases act with
  | operate op =>
    rw [effect_operate]
    exact ((op.drive_noReset hact cfg v b.blocks).keeps
      (I := fun t => Held b.sim 0 t) (fun _ hq _ ht => ht.reply hq) h.held).1
  | drain n =>
    obtain ⟨hqueue, hcommitted, hfault⟩ := b.sim.queue_drain n
    obtain ⟨hrunning, hstop⟩ := b.sim.drain_motion n
    exact ⟨⟨hstop.trans h.stop, hrunning.trans h.running, hfault.trans h.fault⟩, hcommitted, hqueue⟩
  | trip => exact ⟨⟨rfl, rfl, h.fault⟩, rfl, rfl⟩
  | setFault fault => exact hact.elim
  | setAutoDrain | forceError | setWord | setInput | mount =>
    exact ⟨⟨h.stop, h.running, h.fault⟩, rfl, rfl⟩

theorem Bench.run_held {acts : List Action} {b : Bench} (hacts : ∀ act ∈ acts, act.KeepsStop)
    (h : b.sim.Halted) (cfg : Settings) (v : Verbosity) :
    Held b.sim (acts.map Action.drained).sum (run cfg v acts b).sim := by
  induction acts generalizing b with
  | nil => exact h.held
  | cons act acts ih =>
    obtain ⟨hact, hmore⟩ := List.forall_mem_cons.1 hacts
    have hfirst := act.effect_held hact h cfg v
    rw [List.map_cons, List.sum_cons]
    exact hfirst.trans (ih hmore hfirst.halted)

theorem Action.events_held {act : Action} {b : Bench} (hact : act.KeepsStop) (h : b.sim.Halted)
    (cfg : Settings) (v : Verbosity) :
    ∀ e ∈ act.events cfg v b, Held b.sim 0 e.after ∧
      ∀ w, e.access = .read .status w → Status.isStopped ⟨w⟩ = true := by
  cases act with
  | operate op =>
    intro e he
    obtain ⟨hafter, before, hbefore, hfrom⟩ := ((op.drive_noReset hact cfg v b.blocks).keeps
      (I := fun t => Held b.sim 0 t) (fun _ hq _ ht => ht.reply hq) h.held).2 e he
    refine ⟨hafter, fun w hw => ?_⟩
    rw [Event.From, hw] at hfrom
    rw [Simulator.bits_of_read_status hbefore.halted.fault hfrom]
    exact hafter.isStopped
  | _ => exact fun e he => absurd he List.not_mem_nil

/-- While a stop is latched, whatever is done short of a reset: there is no motion and no commit,
at any access, and the queue loses only what its surroundings take from it. Every status that is
read shows the stop. Who asks for motion, or would commit a block, is refused, and the cursor of
an array stays where it is. -/
theorem stop_holds (cfg : Settings) (v : Verbosity) (s : Simulator) (a : BlockArray Block)
    (acts : List Action) (hs : s.Reachable) (hfault : s.fault = none) (hstop : s.emergency = true)
    (hacts : ∀ act ∈ acts, act.KeepsStop) :
    let b := Bench.run cfg v acts ⟨s, a⟩
    (b.sim.running = false ∧ b.sim.committed = s.committed ∧
      b.sim.queue = s.queue.drop (acts.map Action.drained).sum) ∧
    (∀ act : Action, act.KeepsStop → ∀ e ∈ act.events cfg v b,
      e.after.running = false ∧ e.after.committed = s.committed ∧ e.after.queue = b.sim.queue ∧
        ∀ w, e.access = .read .status w → Status.isStopped ⟨w⟩ = true) ∧
    (∃ st, (Simulator.file.run v Controller.enableMotion.run b.sim).1 =
      .error (.emergencyStop st)) ∧
    (∀ block start, (Simulator.file.run v (Controller.load cfg block start).run b.sim).1 =
      .error (refusal cfg b.sim)) ∧
    ∀ a' : BlockArray Block, a'.peek?.isSome →
      (Simulator.file.run v (Controller.execute cfg a') b.sim).1 =
        (.error (refusal cfg b.sim), a') := by
  intro b
  have hhalted : s.Halted := ⟨hstop, hs.exclusive hstop, hfault⟩
  have hheld : Held s _ b.sim := Bench.run_held (b := ⟨s, a⟩) hacts hhalted cfg v
  have hb : b.sim.Halted := hheld.halted
  refine ⟨⟨hb.running, hheld.committed, hheld.queue⟩, ?_, ?_, ?_, ?_⟩
  · intro act hact e he
    obtain ⟨hafter, hstatus⟩ := act.events_held hact hb cfg v e he
    exact ⟨hafter.halted.running, hafter.committed.trans hheld.committed, hafter.queue, hstatus⟩
  · exact ⟨_, (Simulator.file.run_fst v _ _).trans hb.outcome_enableMotion⟩
  · intro block start
    exact (Simulator.file.run_fst v _ _).trans (hb.outcome_load cfg block start)
  · intro a' ha'
    obtain ⟨block, hblock⟩ := Option.isSome_iff_exists.1 ha'
    exact (Simulator.file.run_fst v _ _).trans (hb.outcome_execute cfg hblock)

/-- A block is queued when the stop comes, and only the surroundings take it away. -/
theorem stop_holds_after_trip :
    let block : Block := { x := { instruction := 1, rate := 100, count := 16, width := 4 } }
    let s := (Simulator.write .command Command.commit {}).trip
    let acts : List Action :=
      [.operate (.stage block), .operate .enableMotion, .forceError true, .drain 1,
        .operate (.load block true)]
    let b := Bench.run {} .off acts ⟨s, .empty⟩
    (s.Reachable ∧ s.fault = none ∧ s.emergency = true ∧ ∀ act ∈ acts, act.KeepsStop) ∧
      b.sim.running = false ∧ b.sim.committed = 1 ∧ b.sim.queue = [] ∧
      (Simulator.file.run .off (Controller.load {} block true).run b.sim).1 =
        .error (refusal {} b.sim) := by
  intro block s acts b
  have hs : s.Reachable := .trip (.write _ _ .start)
  have hacts : ∀ act ∈ acts, act.KeepsStop := by simp [acts, Action.KeepsStop]
  have hcommitted : s.committed = 1 := by decide
  have hqueue : s.queue.length = 1 := by decide
  obtain ⟨⟨hrunning, hsame, hleft⟩, -, -, hload, -⟩ :=
    stop_holds {} .off s .empty acts hs rfl rfl hacts
  refine ⟨⟨hs, rfl, rfl, hacts⟩, hrunning, hsame.trans hcommitted, hleft.trans ?_, hload block true⟩
  have hdrained : (acts.map Action.drained).sum = 1 := rfl
  rw [hdrained, ← hqueue, List.drop_length]

end PulseMill
