import PulseMill.Proofs.SimulatedDelivery
set_option autoImplicit false

namespace PulseMill.Simulator

open Controller (Settings)

variable {s : Simulator}

theorem outcome_status (h : s.fault = none) :
    file.outcome Controller.status s = (⟨s.readStatus.1⟩, s.readStatus.2) := by
  have hread : file.read .status s = s.readStatus := read_status h
  rw [Controller.status, RegisterFile.outcome_bind, RegisterFile.outcome_read, hread]
  rfl

theorem outcome_checkedStatus (h : s.fault = none) :
    file.outcome Controller.checkedStatus.run s =
      (Controller.checkStatus ⟨s.readStatus.1⟩, s.readStatus.2) := by
  simp only [Controller.checkedStatus, Controller.Attempt.run_lift_bind,
    Controller.Attempt.run_liftExcept, RegisterFile.outcome_bind, outcome_status h,
    RegisterFile.outcome_done]

structure Still (s : Simulator) : Prop where
  fault : s.fault = none
  idle : s.isBusy = false

theorem Still.readStatus (h : s.Still) : s.readStatus = (s.statusBits, s) := by
  have hidle := h.idle
  unfold isBusy at hidle
  cases hrunning : s.running with
  | false => simp [Simulator.readStatus, hrunning]
  | true =>
    have hqueue : s.queue = [] := by simpa [hrunning] using hidle
    simp [Simulator.readStatus, retireOne, hqueue]

theorem isFull_words (s : Simulator) (words : Words) : isFull { s with words } = s.isFull := rfl

theorem statusBits_words (s : Simulator) (words : Words) :
    statusBits { s with words } = s.statusBits := rfl

theorem Still.words (h : s.Still) (words : Words) : Still { s with words } := ⟨h.fault, h.idle⟩

theorem Still.outcome_status (h : s.Still) :
    file.outcome Controller.status s = (⟨s.statusBits⟩, s) := by
  rw [Simulator.outcome_status h.fault, h.readStatus]

theorem Still.outcome_checkedStatus (h : s.Still) :
    file.outcome Controller.checkedStatus.run s =
      (Controller.checkStatus ⟨s.statusBits⟩, s) := by
  rw [Simulator.outcome_checkedStatus h.fault, h.readStatus]

def noticesError (cfg : Settings) (s : Simulator) : Bool :=
  cfg.checkOnStage && (s.forcedError || s.overflow)

theorem Still.outcome_stageWord (h : s.Still) (cfg : Settings) (axis : HardwareAxis)
    (field : AxisField) (w : UInt32) :
    file.outcome (Controller.stageWord cfg axis field w).run s =
      (if noticesError cfg s then .error (.fault ⟨s.statusBits⟩) else .ok (),
        s.setWord (.staged axis field) w) := by
  have hwrite : file.write (.staged axis field) w s = s.setWord (.staged axis field) w :=
    write_staged h.fault axis field w
  have hstatus : file.outcome Controller.status (s.setWord (.staged axis field) w) =
      (⟨s.statusBits⟩, s.setWord (.staged axis field) w) := (h.words _).outcome_status
  simp only [Controller.stageWord, Controller.Attempt.run_lift_bind, Controller.Attempt.run_ite,
    Controller.Attempt.run_throw, Controller.Attempt.run_pure, RegisterFile.outcome_bind,
    RegisterFile.outcome_write, hwrite]
  cases hcheck : cfg.checkOnStage with
  | false => simp [noticesError, hcheck]
  | true =>
    simp only [if_true, RegisterFile.outcome_bind, hstatus, isError_statusBits, noticesError,
      hcheck, Bool.true_and]
    cases s.forcedError || s.overflow <;> rfl

theorem Still.outcome_stageWords {cfg : Settings} (h : s.Still)
    (hcheck : noticesError cfg s = false) (l : List (HardwareAxis × AxisField × UInt32)) :
    file.outcome (l.forM fun (axis, field, w) => Controller.stageWord cfg axis field w).run s =
      (.ok (), { s with words := s.words.putAll (l.map stagingWrite) }) := by
  induction l generalizing s with
  | nil => rfl
  | cons first l ih =>
    obtain ⟨axis, field, w⟩ := first
    have hfirst := h.outcome_stageWord cfg axis field w
    rw [hcheck] at hfirst
    exact (RegisterFile.outcome_attempt_ok hfirst _).trans (ih (h.words _) hcheck)

theorem Still.outcome_stage {cfg : Settings} (h : s.Still) (hcheck : noticesError cfg s = false)
    (b : Block) :
    file.outcome (Controller.stage cfg b).run s =
      (.ok (), { s with words := s.words.putAll b.stagingWrites }) :=
  h.outcome_stageWords hcheck (Controller.staging b)

theorem Still.outcome_stage_error {cfg : Settings} (h : s.Still)
    (hcheck : noticesError cfg s = true) (b : Block) :
    file.outcome (Controller.stage cfg b).run s =
      (.error (.fault ⟨s.statusBits⟩), s.setWord (.staged .x .rate) b.x.rate) := by
  have hfirst := h.outcome_stageWord cfg .x .rate b.x.rate
  rw [if_pos hcheck] at hfirst
  exact RegisterFile.outcome_attempt_error hfirst _

/-- What a wait makes of a status that stays as it is. -/
def verdict (ready : Status → Bool) (st : Status) (polls : Nat) : Except HardwareError Status :=
  if st.isStopped then .error (.emergencyStop st)
  else if st.isError then .error (.fault st)
  else if ready st then .ok st
  else .error (.timeout st polls)

theorem verdict_of_settles {ready : Status → Bool} {st : Status} (h : st.Settles ready)
    (polls : Nat) :
    verdict ready st polls =
      if st.isStopped then .error (.emergencyStop st)
      else if st.isError then .error (.fault st)
      else .ok st := by
  unfold verdict
  split
  case isTrue => rfl
  case isFalse hstop =>
    split
    case isTrue => rfl
    case isFalse herror => rw [if_pos ((h.resolve_left hstop).resolve_left herror)]

theorem verdict_of_not_settles {ready : Status → Bool} {st : Status} (h : ¬ st.Settles ready)
    (polls : Nat) : verdict ready st polls = .error (.timeout st polls) := by
  rw [Status.Settles, not_or, not_or] at h
  obtain ⟨hstop, herror, hready⟩ := h
  rw [verdict, if_neg hstop, if_neg herror, if_neg hready]

theorem verdict_of_clear {ready : Status → Bool} {st : Status} (hstop : st.isStopped = false)
    (herror : st.isError = false) (polls : Nat) :
    verdict ready st polls = if ready st then .ok st else .error (.timeout st polls) := by
  rw [verdict, hstop, herror]
  rfl

end PulseMill.Simulator

namespace PulseMill

open Controller

/-- One poll of any registers: the status is the last one to be read, or the wait goes on with one
poll less. -/
theorem RegisterFile.outcome_poll {σ : Type} (file : RegisterFile σ) (ready : Status → Bool)
    (made more : Nat) (s : σ) :
    file.outcome (poll ready made more).run s =
      if Status.Settles ⟨(file.read .status s).1⟩ ready ∨ more = 0 then
        (Simulator.verdict ready ⟨(file.read .status s).1⟩ (made + 1), (file.read .status s).2)
      else
        file.outcome (poll ready (made + 1) (more - 1)).run (file.read .status s).2 := by
  have hstatus : file.outcome Controller.status s =
      (⟨(file.read .status s).1⟩, (file.read .status s).2) := rfl
  rw [poll.eq_def]
  simp only [Attempt.run_lift_bind, Attempt.run_ite, Attempt.run_throw_bind, Attempt.run_pure,
    outcome_bind, hstatus, outcome_note]
  generalize (⟨(file.read .status s).1⟩ : Status) = st
  cases hstop : st.isStopped with
  | true => simp [Status.Settles, Simulator.verdict, hstop]
  | false =>
    cases herror : st.isError with
    | true => simp [Status.Settles, Simulator.verdict, hstop, herror]
    | false =>
      cases hready : ready st with
      | true => simp [Status.Settles, Simulator.verdict, hstop, herror, hready]
      | false =>
        cases more with
        | zero =>
          simp only [Simulator.verdict, hstop, herror, hready, Bool.false_eq_true, if_false,
            or_true, if_true]
          rfl
        | succ fewer => simp [Status.Settles, hstop, herror, hready]

end PulseMill

namespace PulseMill.Simulator

variable {s : Simulator}

theorem Still.outcome_poll (h : s.Still) (ready : Status → Bool) (made more : Nat) :
    file.outcome (Controller.poll ready made more).run s =
      (verdict ready ⟨s.statusBits⟩ (made + more + 1), s) := by
  have hread : file.read .status s = (s.statusBits, s) := (read_status h.fault).trans h.readStatus
  induction more generalizing made with
  | zero => rw [RegisterFile.outcome_poll, hread, if_pos (.inr rfl)]
  | succ more ih =>
    rw [RegisterFile.outcome_poll, hread]
    by_cases hsettles : Status.Settles ⟨s.statusBits⟩ ready
    · rw [if_pos (.inl hsettles), verdict_of_settles hsettles, verdict_of_settles hsettles]
    · rw [if_neg (by simp [hsettles]), Nat.add_sub_cancel, ih]
      congr 2
      omega

end PulseMill.Simulator
