import PulseMill.Proofs.AddressFault
set_option autoImplicit false

namespace PulseMill

open Controller (Attempt)

theorem Register.nodup_writable : writable.Nodup :=
  List.Pairwise.of_map word (fun _ _ hne heq => hne (congrArg word heq))
    (show (writable.map word).Nodup by decide)

theorem Register.length_writable : writable.length = 49 := rfl

namespace Words

variable {ws : Words} {r : Register} {w : UInt32} {i : Nat}

theorem getElem_put_of_ne (hi : i < Register.words) (h : r.word ≠ i) :
    (ws.put r w)[i] = ws[i] := Vector.getElem_set_ne _ hi h

theorem getElem_putAll_of_ne {l : List (Register × UInt32)} (hi : i < Register.words)
    (h : ∀ e ∈ l, e.1.word ≠ i) : (ws.putAll l)[i] = ws[i] := by
  induction l generalizing ws with
  | nil => rfl
  | cons e l ih =>
    obtain ⟨hfirst, hmore⟩ := List.forall_mem_cons.1 h
    exact (ih hmore).trans (getElem_put_of_ne hi hfirst)

/-- Zero wherever software may write. These are many writes, so no definition is unfolded into
them unasked. -/
@[irreducible] def cleared (ws : Words) : Words := ws.putAll (Register.writable.map fun r => (r, 0))

theorem map_fst_zeroes (rs : List Register) :
    (rs.map fun r => (r, (0 : UInt32))).map Prod.fst = rs := by
  rw [List.map_map]
  exact List.map_id rs

theorem get_cleared (h : r ∈ Register.writable) : ws.cleared.get r = 0 := by
  rw [cleared]
  refine get_putAll ?_ (List.mem_map.2 ⟨r, h, rfl⟩)
  rw [map_fst_zeroes]
  exact Register.nodup_writable

theorem getElem_cleared_of_ne (hi : i < Register.words)
    (h : ∀ r ∈ Register.writable, r.word ≠ i) : ws.cleared[i] = ws[i] := by
  simp only [cleared]
  refine getElem_putAll_of_ne hi fun e he => ?_
  obtain ⟨r, hr, rfl⟩ := List.mem_map.1 he
  exact h r hr

theorem cleared_put (h : r ∈ Register.writable) : (ws.put r w).cleared = ws.cleared := by
  refine Vector.ext fun i hi => ?_
  by_cases hplace : ∃ q ∈ Register.writable, q.word = i
  · obtain ⟨q, hq, rfl⟩ := hplace
    exact (get_cleared hq).trans (get_cleared hq).symm
  · have hnone : ∀ q ∈ Register.writable, q.word ≠ i := fun q hq heq => hplace ⟨q, hq, heq⟩
    rw [getElem_cleared_of_ne hi hnone, getElem_cleared_of_ne hi hnone,
      getElem_put_of_ne hi (hnone r h)]

end Words

namespace Simulator

variable {s : Simulator} {r : Register} {w : UInt32}

def cleared (s : Simulator) : Simulator := { s with words := s.words.cleared }

theorem fault_cleared (s : Simulator) : s.cleared.fault = s.fault := rfl

theorem fault_of_cleared_eq {t : Simulator} (h : t.cleared = s.cleared) : t.fault = s.fault := by
  rw [← fault_cleared t, h, fault_cleared]

theorem cleared_setWord (h : r ∈ Register.writable) : (s.setWord r w).cleared = s.cleared :=
  congrArg (fun words => ({ s with words } : Simulator)) (Words.cleared_put h)

theorem read_cleared (h : s.fault = none) (hr : r ∈ Register.writable) :
    read r s.cleared = (0, s.cleared) := by
  have hstatus : r ≠ .status := by
    rintro rfl
    exact absurd hr (by decide)
  have hzero : s.cleared.word r = 0 := Words.get_cleared hr
  rw [read_of_ne ((fault_cleared s).trans h) hstatus, hzero]

theorem write_plain (h : s.fault = none) (hr : r ∈ Register.writable) (hw : r = .command → w = 0) :
    write r w s = s.setWord r w := by
  have hstores := Register.mem_writable_iff.1 hr
  cases r with
  | command =>
    obtain rfl := hw rfl
    rw [write_command h]
    rfl
  | staged axis field => exact write_staged h axis field w
  | gpioOutput bank | expansionOutput bank => simp [write, resolve, h]
  | _ => cases hstores

theorem outcome_zeroes (h : s.fault = none) {rs : List Register}
    (hrs : ∀ r ∈ rs, r ∈ Register.writable) :
    file.outcome (rs.forM fun r => Bus.write r 0) s =
      ((), { s with words := s.words.putAll (rs.map fun r => (r, 0)) }) := by
  induction rs generalizing s with
  | nil => rfl
  | cons r rs ih =>
    obtain ⟨hfirst, hmore⟩ := List.forall_mem_cons.1 hrs
    have hwrite : file.outcome (Bus.write r 0) s = ((), s.setWord r 0) :=
      congrArg _ (write_plain h hfirst fun _ => rfl)
    change file.outcome (Bus.write r 0 >>= fun _ => rs.forM fun r => Bus.write r 0) s = _
    rw [RegisterFile.outcome_bind, hwrite]
    exact ih (s := s.setWord r 0) h hmore

theorem outcome_zeroWritable (h : s.fault = none) :
    file.outcome Controller.zeroWritable s = ((), s.cleared) := by
  rw [Controller.zeroWritable, outcome_zeroes h fun _ hr => hr, cleared, Words.cleared]

def sentinelError (s : Simulator) (r : Register) (expected : UInt32) : Option HardwareError :=
  if s.word r = expected then none else some (.sentinelMismatch r.offset expected (s.word r))

def versionError (s : Simulator) : Option HardwareError :=
  if s.word .version = Register.interfaceVersion then none
  else some (.interfaceVersion Register.interfaceVersion (s.word .version))

/-- What is wrong with the words by which the register file is known. The first of them counts. -/
def identityError (s : Simulator) : Option HardwareError :=
  (s.sentinelError .sentinel0 Register.sentinel0Value).or
    ((s.sentinelError .sentinel1 Register.sentinel1Value).or s.versionError)

theorem outcome_expectSentinel (h : s.fault = none) (hr : r ≠ .status) (expected : UInt32) :
    file.outcome (Controller.expectSentinel r expected).run s =
      (report (s.sentinelError r expected), s) := by
  have hread : file.read r s = (s.word r, s) := read_of_ne h hr
  simp only [Controller.expectSentinel, Attempt.run_lift_bind, Attempt.run_ite,
    RegisterFile.outcome_bind, RegisterFile.outcome_read, hread, sentinelError]
  by_cases hword : s.word r = expected <;> simp [hword, report]

theorem outcome_expectVersion (h : s.fault = none) :
    file.outcome Controller.expectVersion.run s = (report s.versionError, s) := by
  have hread : file.read .version s = (s.word .version, s) := read_of_ne h (by simp)
  simp only [Controller.expectVersion, Attempt.run_lift_bind, Attempt.run_ite,
    RegisterFile.outcome_bind, RegisterFile.outcome_read, hread, versionError]
  by_cases hword : s.word .version = Register.interfaceVersion <;> simp [hword, report]

theorem outcome_reports {x y : Attempt Unit} {first second : Option HardwareError}
    (hx : file.outcome x.run s = (report first, s))
    (hy : file.outcome y.run s = (report second, s)) :
    file.outcome (x >>= fun _ => y).run s = (report (first.or second), s) := by
  cases first with
  | some e => exact RegisterFile.outcome_attempt_error hx _
  | none => exact (RegisterFile.outcome_attempt_ok hx _).trans hy

def identify : Attempt Unit := do
  Controller.expectSentinel .sentinel0 Register.sentinel0Value
  Controller.expectSentinel .sentinel1 Register.sentinel1Value
  Controller.expectVersion

theorem setUp_eq_identify_bind (v : Verbosity) :
    Controller.setUp v = (do
      identify
      Controller.zeroWritable
      if v.shows .debug then
        let s ← Controller.status
        Bus.note .debug fun _ => s!"controller initialized, status {s}") := by
  simp [Controller.setUp, identify]

theorem outcome_identify (h : s.fault = none) :
    file.outcome identify.run s = (report s.identityError, s) :=
  outcome_reports (outcome_expectSentinel h (by simp) _)
    (outcome_reports (outcome_expectSentinel h (by simp) _) (outcome_expectVersion h))

theorem identityError_eq_none_iff : s.identityError = none ↔
    s.word .sentinel0 = Register.sentinel0Value ∧ s.word .sentinel1 = Register.sentinel1Value ∧
      s.word .version = Register.interfaceVersion := by
  simp [identityError, sentinelError, versionError]

theorem outcome_setUp (h : s.fault = none) {v : Verbosity} (hv : v.shows .debug = false) :
    file.outcome (Controller.setUp v).run s =
      (report s.identityError, if s.identityError = none then s.cleared else s) := by
  have hknown := outcome_identify h
  rw [setUp_eq_identify_bind]
  cases hwrong : s.identityError with
  | some e =>
    rw [hwrong] at hknown
    exact RegisterFile.outcome_attempt_error hknown _
  | none =>
    rw [hwrong] at hknown
    rw [RegisterFile.outcome_attempt_ok hknown]
    simp only [Attempt.run_lift_bind, RegisterFile.outcome_bind, outcome_zeroWritable h, hv]
    rfl

def Inert : Bus.Query → Prop
  | .read r => r ≠ .status
  | .write r w => r = .command → w = 0
  | .note .. => True

theorem reply_cleared {q : Bus.Query} (hq : Inert q) (h : s.fault = none) :
    (file.reply q s).2.cleared = s.cleared := by
  have hplace (r : Register) : s.resolve r = r := resolve_of_fault_eq_none h r
  cases q with
  | note level text => rfl
  | read r =>
    have hstays : (read r s).2 = s := read_state_of_ne_status (by rw [hplace]; exact hq)
    exact congrArg cleared hstays
  | write r w =>
    change (write r w s).cleared = s.cleared
    by_cases hr : r ∈ Register.writable
    · rw [write_plain h hr hq]
      exact cleared_setWord hr
    · rw [Register.mem_writable_iff] at hr
      rw [write_ignored ((hplace r).symm ▸ hr)]

theorem inert_cleared {α : Type} {d : Drive α} (hd : d.Only Inert) (h : s.fault = none) :
    (file.outcome d s).2.cleared = s.cleared := by
  -- The fault is among what the zeroing keeps.
  have keep (q : Bus.Query) (hq : Inert q) (t : Simulator) (ht : t.cleared = s.cleared) :
      (file.reply q t).2.cleared = s.cleared :=
    (reply_cleared hq ((fault_of_cleared_eq ht).trans h)).trans ht
  exact (hd.keeps keep rfl).1

theorem expectRegister_inert (ordinal : Nat) (hr : r ≠ .status) (expected : UInt32) :
    (Controller.expectRegister ordinal r expected).run.Only Inert := by
  simp only [Controller.expectRegister, Attempt.run_lift_bind, Attempt.run_ite, Attempt.run_throw,
    Attempt.run_pure]
  refine Dialogue.Only.bind ⟨hr, fun _ => trivial⟩ fun actual => ?_
  split
  · exact ⟨trivial, fun _ => trivial⟩
  · trivial

theorem ne_status_of_mem_staging (hr : r ∈ Register.staging) : r ≠ .status := by
  rintro rfl
  exact absurd hr (by decide)

theorem write_inert (hr : r ∈ Register.staging) (w : UInt32) : (Bus.write r w).Only Inert :=
  ⟨fun hcommand => absurd hcommand (Harmless.ne_command_of_mem_staging hr), fun _ => trivial⟩

theorem testPattern_inert (pattern : UInt32) :
    (Controller.testPattern pattern).run.Only Inert := by
  simp only [Controller.testPattern, Attempt.run_lift_bind]
  refine Dialogue.Only.bind ⟨trivial, fun _ => trivial⟩ fun _ =>
    Harmless.forM_attempt_only fun e he => ?_
  have hr := List.fst_mem_of_mem_zipIdx he
  simp only [Attempt.run_lift_bind]
  exact (write_inert hr pattern).bind fun _ =>
    expectRegister_inert e.2 (ne_status_of_mem_staging hr) pattern

theorem testOrdinals_inert : Controller.testOrdinals.run.Only Inert := by
  rw [Controller.testOrdinals]
  refine .attempt_bind (Harmless.forM_attempt_only fun e he => ?_) fun _ =>
    Harmless.forM_attempt_only fun e he => ?_
  · exact (write_inert (List.fst_mem_of_mem_zipIdx he) _).bind fun _ => trivial
  · exact expectRegister_inert e.2
      (ne_status_of_mem_staging (List.fst_mem_of_mem_zipIdx he)) _

theorem outcome_selfTest (h : s.fault = none) :
    file.outcome Controller.selfTest.run s = (.ok (), s.cleared) := by
  have hverdict : (file.outcome Controller.selfTest.run s).1 = .ok () := by
    refine finds_nothing_of_direct (fun q _ => resolve_of_fault_eq_none h q) fun q _ w => ?_
    simp only [distort, h]
  let tests : Attempt Unit := do
    Controller.testPatterns.forM Controller.testPattern
    Controller.testOrdinals
  have htests : tests.run.Only Inert :=
    .attempt_bind (Harmless.forM_attempt_only fun pattern _ => testPattern_inert pattern) fun _ =>
      testOrdinals_inert
  have hself : Controller.selfTest = tests >>= fun _ => liftM Controller.zeroWritable :=
    (bind_assoc ..).symm
  have hleft := inert_cleared htests h
  rw [hself] at hverdict ⊢
  cases hends : file.outcome tests.run s with
  | mk r t =>
    rw [hends] at hleft
    cases r with
    | error e =>
      rw [RegisterFile.outcome_attempt_error hends] at hverdict
      cases hverdict
    | ok u =>
      rw [RegisterFile.outcome_attempt_ok hends, Attempt.run_lift, RegisterFile.outcome_bind,
        outcome_zeroWritable ((fault_of_cleared_eq hleft).trans h), hleft]
      rfl

/-- Set up, a simulator without a fault tells the first of the three known words that is wrong, and
then nothing has changed. The self test finds nothing. When either of them has gone well, all that
may be written reads as zero, and each other word, the queue, motion, latches and counts are as they
were. -/
theorem setUp_selfTest_frame (s : Simulator) (v w : Verbosity) (h : s.fault = none)
    (hv : v.shows .debug = false) :
    let up := file.run v (Controller.setUp v).run s
    let tested := file.run w Controller.selfTest.run s
    let left := tested.2.1
    let known (r : Register) (expected : UInt32) : Prop := s.word r = expected
    (up.1 = .ok () ↔ known .sentinel0 Register.sentinel0Value ∧
      known .sentinel1 Register.sentinel1Value ∧ known .version Register.interfaceVersion) ∧
    (¬ known .sentinel0 Register.sentinel0Value →
      up.1 = .error (.sentinelMismatch Register.sentinel0.offset Register.sentinel0Value
        (s.word .sentinel0))) ∧
    (known .sentinel0 Register.sentinel0Value → ¬ known .sentinel1 Register.sentinel1Value →
      up.1 = .error (.sentinelMismatch Register.sentinel1.offset Register.sentinel1Value
        (s.word .sentinel1))) ∧
    (known .sentinel0 Register.sentinel0Value → known .sentinel1 Register.sentinel1Value →
      ¬ known .version Register.interfaceVersion →
      up.1 = .error (.interfaceVersion Register.interfaceVersion (s.word .version))) ∧
    (up.1 ≠ .ok () → up.2.1 = s) ∧
    (up.1 = .ok () → up.2.1 = left) ∧
    tested.1 = .ok () ∧
    Register.writable.length = 49 ∧ Register.writable.Nodup ∧
    (∀ r ∈ Register.writable, file.read r left = (0, left)) ∧
    (∀ i (_ : i < Register.words), (∀ r ∈ Register.writable, r.word ≠ i) →
      left.words[i] = s.words[i]) ∧
    left = { s with words := left.words } := by
  intro up tested left known
  have hup : up.1 = report s.identityError :=
    (file.run_fst v _ s).trans (congrArg Prod.fst (outcome_setUp h hv))
  have hchanged : up.2.1 = if s.identityError = none then s.cleared else s :=
    (file.run_state v _ s).trans (congrArg Prod.snd (outcome_setUp h hv))
  have htested : tested.1 = .ok () :=
    (file.run_fst w _ s).trans (congrArg Prod.fst (outcome_selfTest h))
  have hleft : left = s.cleared :=
    (file.run_state w _ s).trans (congrArg Prod.snd (outcome_selfTest h))
  have hok : up.1 = .ok () ↔ s.identityError = none := by
    rw [hup]
    cases s.identityError <;> simp [report]
  refine ⟨hok.trans identityError_eq_none_iff, fun h0 => hup.trans ?_, fun h0 h1 => hup.trans ?_,
    fun h0 h1 hversion => hup.trans ?_, fun hwrong => hchanged.trans (if_neg (mt hok.2 hwrong)),
    fun hright => hchanged.trans ((if_pos (hok.1 hright)).trans hleft.symm), htested,
    Register.length_writable, Register.nodup_writable, fun r hr => ?_, fun i hi hother => ?_, ?_⟩
  · rw [identityError, sentinelError, if_neg h0]
    rfl
  · rw [identityError, sentinelError, if_pos h0, sentinelError, if_neg h1]
    rfl
  · rw [identityError, sentinelError, if_pos h0, sentinelError, if_pos h1, versionError,
      if_neg hversion]
    rfl
  · rw [hleft]
    exact read_cleared h hr
  · rw [hleft]
    exact Words.getElem_cleared_of_ne hi hother
  · rw [hleft]
    rfl

/-- A block is queued, in motion and after an error, and words are left everywhere. All of this but
the words stays. Where a sentinel and the version are both wrong, the sentinel is told. -/
theorem setUp_selfTest_frame_in_motion :
    let used : Simulator :=
      { words := (Words.initial.put .command 0x14).put (.gpioOutput 2) 9
        queue := [{}]
        running := true
        overflow := true
        sticky := true }
    let strange : Simulator := (used.setWord .sentinel1 0).setWord .version 2
    let up (s : Simulator) := file.run ⟨some .info⟩ (Controller.setUp ⟨some .info⟩).run s
    let tested := (file.run .off Controller.selfTest.run used).2.1
    (up used).1 = .ok () ∧ (up used).2.1 = tested ∧ tested.queue = [{}] ∧ tested.running = true ∧
      tested.overflow = true ∧ tested.sticky = true ∧
      file.read (.gpioOutput 2) tested = (0, tested) ∧
      up strange = (.error (.sentinelMismatch 0xF4 0x5A5A5A5A 0), strange, (up strange).2.2) := by
  intro used strange up tested
  obtain ⟨hok, -, -, -, -, hsame, -, -, -, hzero, -, hframe⟩ :=
    setUp_selfTest_frame used ⟨some .info⟩ .off rfl rfl
  obtain ⟨-, -, hsecond, -, hunchanged, -⟩ :=
    setUp_selfTest_frame strange ⟨some .info⟩ .off rfl rfl
  have hup : (up used).1 = .ok () := hok.2 (by decide)
  have herror : (up strange).1 = .error (.sentinelMismatch 0xF4 0x5A5A5A5A 0) :=
    hsecond (by decide) (by decide)
  have hleft : (up strange).2.1 = strange := hunchanged (by rw [herror]; nofun)
  refine ⟨hup, hsame hup, congrArg queue hframe, congrArg running hframe, congrArg overflow hframe,
    congrArg sticky hframe, hzero (.gpioOutput 2) (by decide), ?_⟩
  exact Prod.ext herror (Prod.ext hleft rfl)

end Simulator

end PulseMill
