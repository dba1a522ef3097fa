import PulseMill.Proofs.Conversation
set_option autoImplicit false

namespace PulseMill

open Controller

variable {α : Type} {P : Bus.Query → Prop}

structure Harmless (P : Bus.Query → Prop) : Prop where
  read (r : Register) : P (.read r)
  note (level : Level) (text : Unit → String) : P (.note level text)
  write (r : Register) (w : UInt32) (h : r ≠ .command) : P (.write r w)
  zero : P (.write .command 0)

namespace Harmless

theorem read_only (h : Harmless P) (r : Register) : (Bus.read r).Only P :=
  ⟨h.read r, fun _ => trivial⟩

theorem note_only (h : Harmless P) (level : Level) (text : Unit → String) :
    (Bus.note level text).Only P :=
  ⟨h.note level text, fun _ => trivial⟩

theorem write_only {r : Register} {w : UInt32} (h : P (.write r w)) : (Bus.write r w).Only P :=
  ⟨h, fun _ => trivial⟩

theorem forM_only {ι : Type} {l : List ι} {f : ι → Drive Unit} (hf : ∀ i ∈ l, (f i).Only P) :
    (l.forM f).Only P := by
  induction l with
  | nil => trivial
  | cons i l ih =>
    have hi := hf i (List.mem_cons_self ..)
    have hl := ih fun j hj => hf j (List.mem_cons_of_mem _ hj)
    exact hi.bind fun _ => hl

theorem forM_attempt_only {ι : Type} {l : List ι} {f : ι → Attempt Unit}
    (hf : ∀ i ∈ l, (f i).run.Only P) : (l.forM f).run.Only P := by
  induction l with
  | nil => trivial
  | cons i l ih =>
    have hi := hf i (List.mem_cons_self ..)
    have hl := ih fun j hj => hf j (List.mem_cons_of_mem _ hj)
    exact Dialogue.Only.attempt_bind hi fun _ => hl

theorem note_throw_only (h : Harmless P) (level : Level) (text : Unit → String)
    (e : HardwareError) :
    (Bus.note level text >>= fun _ => (.done (.error e) : Drive (Except HardwareError α))).Only P :=
  (h.note_only level text).bind fun _ => trivial

theorem status_only (h : Harmless P) : status.Only P :=
  (h.read_only _).bind fun _ => trivial

theorem checkedStatus_only (h : Harmless P) : checkedStatus.run.Only P := by
  simp only [checkedStatus, Attempt.run_lift_bind, Attempt.run_liftExcept]
  exact h.status_only.bind fun _ => trivial

theorem zeroWritable_only (h : Harmless P) : zeroWritable.Only P := by
  refine forM_only fun r _ => write_only ?_
  by_cases hr : r = .command
  · exact hr ▸ h.zero
  · exact h.write r 0 hr

theorem expectSentinel_only (h : Harmless P) (r : Register) (expected : UInt32) :
    (expectSentinel r expected).run.Only P := by
  simp only [expectSentinel, Attempt.run_lift_bind, Attempt.run_ite, Attempt.run_throw,
    Attempt.run_pure]
  refine (h.read_only r).bind fun actual => ?_
  split
  · exact h.note_throw_only ..
  · trivial

theorem expectVersion_only (h : Harmless P) : expectVersion.run.Only P := by
  simp only [expectVersion, Attempt.run_lift_bind, Attempt.run_ite, Attempt.run_throw,
    Attempt.run_pure]
  refine (h.read_only _).bind fun actual => ?_
  split <;> trivial

theorem setUp_only (h : Harmless P) (v : Verbosity) : (setUp v).run.Only P := by
  rw [setUp]
  refine .attempt_bind (h.expectSentinel_only ..) fun _ => ?_
  refine .attempt_bind (h.expectSentinel_only ..) fun _ => ?_
  refine .attempt_bind h.expectVersion_only fun _ => ?_
  simp only [Attempt.run_lift_bind, Attempt.run_ite, Attempt.run_lift, Attempt.run_pure]
  refine h.zeroWritable_only.bind fun _ => ?_
  split
  · exact h.status_only.bind fun s => (h.note_only ..).bind fun _ => trivial
  · trivial

theorem expectRegister_only (h : Harmless P) (ordinal : Nat) (r : Register) (expected : UInt32) :
    (expectRegister ordinal r expected).run.Only P := by
  simp only [expectRegister, Attempt.run_lift_bind, Attempt.run_ite, Attempt.run_throw,
    Attempt.run_pure]
  refine (h.read_only r).bind fun actual => ?_
  split
  · exact h.note_throw_only ..
  · trivial

theorem ne_command_of_mem_staging {r : Register} (hr : r ∈ Register.staging) : r ≠ .command := by
  intro h
  obtain rfl := h
  exact absurd hr (by decide)

theorem testPattern_only (h : Harmless P) (pattern : UInt32) :
    (testPattern pattern).run.Only P := by
  simp only [testPattern, Attempt.run_lift_bind]
  refine (h.note_only ..).bind fun _ => forM_attempt_only fun ⟨r, ordinal⟩ hr => ?_
  simp only [Attempt.run_lift_bind]
  have hr := ne_command_of_mem_staging (List.fst_mem_of_mem_zipIdx hr)
  exact (write_only (h.write r _ hr)).bind fun _ => h.expectRegister_only ..

theorem testOrdinals_only (h : Harmless P) : testOrdinals.run.Only P := by
  rw [testOrdinals]
  refine .attempt_bind (forM_attempt_only fun ⟨r, ordinal⟩ hr => ?_) fun _ =>
    forM_attempt_only fun ⟨r, ordinal⟩ _ => h.expectRegister_only ..
  have hr := ne_command_of_mem_staging (List.fst_mem_of_mem_zipIdx hr)
  exact (write_only (h.write r _ hr)).bind fun _ => trivial

theorem selfTest_only (h : Harmless P) : selfTest.run.Only P := by
  rw [selfTest]
  refine .attempt_bind (forM_attempt_only fun pattern _ => h.testPattern_only pattern) fun _ => ?_
  refine .attempt_bind h.testOrdinals_only fun _ => ?_
  exact h.zeroWritable_only.bind fun _ => trivial

theorem emergencyStop_only (h : Harmless P) (hstop : P (.write .command Command.stop)) :
    emergencyStop.Only P :=
  (write_only hstop).bind fun _ => h.status_only.bind fun _ =>
    (h.note_only ..).bind fun _ => trivial

theorem enableMotion_only (h : Harmless P) (henable : P (.write .command Command.enable)) :
    enableMotion.run.Only P := by
  simp only [enableMotion, Attempt.run_lift_bind]
  exact (write_only henable).bind fun _ => h.checkedStatus_only

theorem stageWord_only (h : Harmless P) (cfg : Settings) (axis : HardwareAxis)
    (field : AxisField) (w : UInt32) : (stageWord cfg axis field w).run.Only P := by
  simp only [stageWord, Attempt.run_lift_bind, Attempt.run_ite, Attempt.run_throw,
    Attempt.run_pure]
  refine (write_only (h.write _ w (by nofun))).bind fun _ => ?_
  split
  · refine h.status_only.bind fun s => ?_
    split
    · exact h.note_throw_only ..
    · trivial
  · trivial

theorem stage_only (h : Harmless P) (cfg : Settings) (b : Block) : (stage cfg b).run.Only P :=
  forM_attempt_only fun _ _ => h.stageWord_only ..

theorem poll_only (h : Harmless P) (ready : Status → Bool) (made more : Nat) :
    (poll ready made more).run.Only P := by
  induction more using Nat.strongRecOn generalizing made with
  | ind more ih =>
    rw [poll.eq_def]
    simp only [Attempt.run_lift_bind, Attempt.run_ite, Attempt.run_throw_bind, Attempt.run_pure]
    refine h.status_only.bind fun s => (h.note_only ..).bind fun _ => ?_
    split
    · exact h.note_throw_only ..
    · split
      · exact h.note_throw_only ..
      · split
        · trivial
        · cases more with
          | zero => exact h.note_throw_only ..
          | succ fewer => exact ih fewer (Nat.lt_succ_self _) _

theorem prepare_only (h : Harmless P) (cfg : Settings) (b : Block) :
    (prepare cfg b).run.Only P :=
  .attempt_bind (h.stage_only ..) fun _ => .attempt_bind (h.poll_only ..) fun _ => trivial

theorem load_only {start : Bool} (h : Harmless P) (hcommit : (commit start).Only P)
    (cfg : Settings) (b : Block) : (load cfg b start).run.Only P := by
  rw [load]
  refine .attempt_bind (h.stage_only ..) fun _ => .attempt_bind (h.poll_only ..) fun _ => ?_
  simp only [Attempt.run_lift_bind]
  refine hcommit.bind fun _ => .attempt_bind h.checkedStatus_only fun s => ?_
  exact (h.note_only ..).bind fun _ => trivial

theorem deliver_only {cfg : Settings} (h : Harmless P)
    (hcommit : (commit cfg.startOnCommit).Only P) (sent : Nat) (blocks : List Block) :
    (deliver cfg sent blocks).Only P := by
  induction blocks generalizing sent with
  | nil => trivial
  | cons b blocks ih =>
    rw [deliver]
    refine (h.prepare_only cfg b).bind fun prepared => ?_
    cases prepared with
    | error e => trivial
    | ok u =>
      refine hcommit.bind fun _ => h.checkedStatus_only.bind fun checked => ?_
      cases checked with
      | error e => trivial
      | ok s => exact ih _

theorem execute_only {cfg : Settings} (h : Harmless P)
    (hcommit : (commit cfg.startOnCommit).Only P) (a : BlockArray Block) :
    (execute cfg a).Only P := by
  rw [execute]
  refine (h.deliver_only hcommit ..).bind fun ⟨sent, ended⟩ => ?_
  cases ended with
  | error e => trivial
  | ok u => exact (h.note_only ..).bind fun _ => trivial

theorem writeOutputs_only (h : Harmless P) (g : Group) : (writeOutputs g).Only P :=
  forM_only fun bank _ => write_only (h.write (.gpioOutput bank) _ (by nofun))

theorem readInputs_only (h : Harmless P) : readInputs.Only P :=
  (h.read_only _).bind fun _ => (h.read_only _).bind fun _ => (h.read_only _).bind fun _ =>
    (h.read_only _).bind fun _ => trivial

end Harmless

end PulseMill
