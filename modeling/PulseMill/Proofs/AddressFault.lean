import PulseMill.Proofs.SelfTest
import PulseMill.Proofs.SimulatorRun
set_option autoImplicit false

/-!
A staging register that is found at the place of another register, and whether the self test sees
it. A place that cannot be written does not keep all patterns, and two staging registers with
one place do not keep two ordinals. But the test visits no other place than those of the staging
registers. If the register is found at an output or at the command register, it keeps all that is
written to it, and nothing disturbs it there.
-/

namespace PulseMill

theorem Register.mem_writable_iff {r : Register} : r ∈ writable ↔ r.Stores := by
  cases r with
  | staged axis field =>
    simp [writable, Stores, staging, HardwareAxis.mem_all, AxisField.mem_all]
  | gpioOutput bank | expansionOutput bank =>
    cases bank
    simp [writable, Stores, Bank.all]
  | _ => simp [writable, Stores, staging]

namespace Simulator

open Register (staging)

variable {s : Simulator} {q r : Register} {i : Nat}

theorem write_ignored (h : ¬ (s.resolve r).Stores) (w : UInt32) : write r w s = s := by
  unfold write
  cases hr : s.resolve r <;> first | rfl | (rw [hr] at h; exact absurd trivial h)

theorem readStatus_words (s : Simulator) (words : Words) :
    (readStatus { s with words }).1 = s.readStatus.1 := by
  have hbits (t : Simulator) : t.readStatus.1 = t.readStatus.2.statusBits := rfl
  rw [hbits, hbits, readStatus_state, readStatus_state, drain_eq, drain_eq]
  rfl

theorem read_words_congr {words : Words} (h : words.get (s.resolve r) = s.word (s.resolve r)) :
    (read r { s with words }).1 = (read r s).1 := by
  have hplace : resolve { s with words } r = s.resolve r := rfl
  unfold read
  rw [hplace]
  cases hr : s.resolve r <;> rw [hr] at h <;> first
    | exact congrArg (s.distort .status) (s.readStatus_words words)
    | exact congrArg (s.distort _) h

theorem read_state_of_ne_status (h : s.resolve r ≠ .status) : (read r s).2 = s := by
  unfold read
  cases hr : s.resolve r <;> first | rfl | exact absurd hr h

theorem write_of_mem_staging (h : s.resolve r ∈ staging) (w : UInt32) :
    write r w s = s.setWord (s.resolve r) w := by
  have hstores := Register.stores_of_mem_staging h
  unfold write
  cases hr : s.resolve r <;> first
    | rfl
    | (rw [hr] at h; exact absurd h (by decide))
    | (rw [hr] at hstores; cases hstores)

def Untouched (s : Simulator) (q : Register) (t : Simulator) : Prop :=
  ∃ words : Words, t = { s with words } ∧ words.get q = s.word q

/-- The pattern shows what is in the place instead. A place with the pattern in it shows nothing. -/
theorem checks_pattern_ignored {pattern : UInt32} (hfault : s.fault = some (.aliased r q))
    (hq : ¬ q.Stores) (hi : staging[i]? = some r)
    (hstatus : (read r s).1 = pattern → q ≠ .status) :
    file.Checks (s.Untouched q) (Controller.testPattern pattern)
      (misread i pattern (read r s).1) := by
  have hresolve := resolve_aliased hfault
  have hfind : (staging.zipIdx.findSome? fun x =>
      if x.1 = r then misread x.2 pattern (read r s).1 else none) =
        misread i pattern (read r s).1 := by
    rw [findSome?_staging hi fun x _ hne => if_neg hne, if_pos rfl]
  rw [← hfind]
  refine RegisterFile.Checks.note (RegisterFile.Checks.forM fun ⟨p, ordinal⟩ hx t ht => ?_)
  obtain ⟨words, rfl, hwords⟩ := ht
  have hmem : p ∈ staging := List.mem_of_getElem? (List.mk_mem_zipIdx_iff_getElem?.1 hx)
  have hstores := Register.stores_of_mem_staging hmem
  by_cases hp : p = r
  · subst hp
    have hplace : s.resolve p = q := by rw [hresolve, if_pos rfl]
    have hwrite : write p pattern { s with words } = { s with words } :=
      write_ignored (s := { s with words }) (fun h => hq (hplace ▸ h)) pattern
    have hread : (read p { s with words }).1 = (read p s).1 :=
      read_words_congr (by rw [hplace]; exact hwords)
    have hcheck := outcome_writeExpect p ordinal pattern { s with words }
    rw [hwrite, hread] at hcheck
    refine ⟨_, fun hnone => ⟨words, ?_, hwords⟩, by rw [if_pos rfl]; exact hcheck⟩
    rw [if_pos rfl, misread_eq_none_iff] at hnone
    refine read_state_of_ne_status (s := { s with words }) fun h => ?_
    exact hstatus hnone (hplace.symm.trans h)
  · have hplace : resolve { s with words } p = p :=
      (hresolve p).trans (if_neg fun h => hp h.symm)
    have hstays : q ≠ p := by
      rintro rfl
      exact hq hstores
    have hkeep := outcome_keep (s := { s with words }) (hplace.symm ▸ hstores) ordinal pattern
    rw [write_of_mem_staging (hplace.symm ▸ hmem), hplace, mismatch_eq_none ?_] at hkeep
    · refine ⟨_, fun _ => ⟨words.put p pattern, rfl, ?_⟩, by rw [if_neg hp]; exact hkeep⟩
      exact (Words.get_put_of_ne hstays).trans hwords
    · simp only [distort, hfault]

theorem statusBits_ne_zero (s : Simulator) : s.statusBits ≠ 0 := by
  intro h
  have hidle := isIdle_statusBits s
  rw [← isBusy_statusBits, h] at hidle
  exact absurd hidle (by decide)

theorem finds_ignored (hfault : s.fault = some (.aliased r q)) (hq : ¬ q.Stores)
    (hi : staging[i]? = some r) :
    (file.outcome Controller.selfTest.run s).1 =
      if (read r s).1 = 0 then .error (.registerTest i 0xFFFFFFFF 0)
      else .error (.registerTest i 0 (read r s).1) := by
  have hstatus : (read r s).1 = 0 → q ≠ .status := by
    rintro hzero rfl
    have hread : (read r s).1 = s.readStatus.2.statusBits := by
      simp only [read, resolve_aliased hfault, if_true, distort, hfault]
      rfl
    exact statusBits_ne_zero _ (hread.symm.trans hzero)
  have hrest (hnone : misread i 0 (read r s).1 = none) :
      file.Checks (s.Untouched q) ([0xFFFFFFFF, 0x55555555, 0xAAAAAAAA].forM Controller.testPattern)
        ((misread i 0xFFFFFFFF (read r s).1).or none) := by
    -- Zero was read, so the ones are not.
    rw [misread_eq_none_iff] at hnone
    refine (checks_pattern_ignored hfault hq hi fun _ => hstatus hnone).bind fun hones => ?_
    rw [misread_eq_none_iff, hnone] at hones
    exact absurd hones (by decide)
  obtain ⟨t, -, hpatterns⟩ :=
    (checks_pattern_ignored hfault hq hi hstatus).bind hrest s ⟨s.words, rfl, rfl⟩
  rw [outcome_selfTest_of_patterns hpatterns, Option.or_none]
  by_cases hzero : (read r s).1 = 0
  · simp [misread, hzero, report]
  · simp [misread, hzero, report]

theorem finds_nothing_of_output (hfault : s.fault = some (.aliased r q)) (hq : q.Stores)
    (hout : q ∉ staging) : (file.outcome Controller.selfTest.run s).1 = .ok () := by
  have hresolve := resolve_aliased hfault
  have hwired : s.Wired := fun u hu => by
    rw [hresolve]
    split
    · exact hq
    · exact Register.stores_of_mem_staging hu
  refine hwired.finds_nothing (fun u _ w => by simp only [distort, hfault])
    fun u hu v hv hsame => ?_
  rw [hresolve, hresolve] at hsame
  split at hsame <;> split at hsame
  case isTrue.isTrue h h' => exact h.symm.trans h'
  case isTrue.isFalse => exact absurd (hsame ▸ hv) hout
  case isFalse.isTrue => exact absurd (hsame ▸ hu) hout
  case isFalse.isFalse => exact hsame

/-- A staging register that is found at another place goes unnoticed just where that place can be
written and is none of the staging registers. Otherwise the error tells the first check that
fails. -/
theorem selfTest_aliased (s : Simulator) (v : Verbosity) (r target : Register) (i : Nat)
    (hfault : s.fault = some (.aliased r target)) (hi : staging[i]? = some r)
    (hne : target ≠ r) :
    let verdict := (file.run v Controller.selfTest.run s).1
    (verdict = .ok () ↔ target ∈ Register.writable ∧ target ∉ staging) ∧
    (∀ j, staging[j]? = some target →
      verdict = .error (.registerTest (min i j) (.ofNat (min i j)) (.ofNat (max i j)))) ∧
    (target ∉ Register.writable →
      verdict = if (read r s).1 = 0 then .error (.registerTest i 0xFFFFFFFF 0)
        else .error (.registerTest i 0 (read r s).1)) := by
  intro verdict
  have hverdict : verdict = (file.outcome Controller.selfTest.run s).1 := file.run_fst v _ s
  rw [hverdict, Register.mem_writable_iff]
  have hshared (j : Nat) (hj : staging[j]? = some target) :=
    finds_aliased hfault hi hj fun hsame => hne (by rw [hsame, hj] at hi; exact Option.some.inj hi)
  refine ⟨⟨fun hok => ?_, fun h => finds_nothing_of_output hfault h.1 h.2⟩, hshared,
    fun h => finds_ignored hfault h hi⟩
  by_cases hstores : target.Stores
  · refine ⟨hstores, fun hmem => ?_⟩
    obtain ⟨j, hj⟩ := List.getElem?_of_mem hmem
    rw [hshared j hj] at hok
    cases hok
  · rw [finds_ignored hfault hstores hi] at hok
    split at hok <;> cases hok

/-- Found at the version, at the status of a machine in motion, and at an output. -/
theorem selfTest_aliased_of_rate :
    let rate : Register := .staged .x .rate
    let met (target : Register) : Simulator :=
      { fault := some (.aliased rate target), queue := [{}, {}], running := true }
    let verdict (target : Register) := (file.run .off Controller.selfTest.run (met target)).1
    verdict .version = .error (.registerTest 0 0 Register.interfaceVersion) ∧
      verdict .status = .error (.registerTest 0 0 Status.busy) ∧
      verdict (.staged .x .count) = .error (.registerTest 0 0 1) ∧
      verdict (.gpioOutput 0) = .ok () := by
  intro rate met verdict
  have law (target : Register) (hne : target ≠ rate) :=
    selfTest_aliased (met target) .off rate target 0 rfl rfl hne
  have hversion := (law .version (by decide)).2.2 (by decide)
  have hstatus := (law .status (by decide)).2.2 (by decide)
  have hcount := (law (.staged .x .count) (by decide)).2.1 1 rfl
  have houtput := (law (.gpioOutput 0) (by decide)).1.2 (by decide)
  have hbits : (read rate (met .status)).1 = Status.busy := by decide
  rw [if_neg (by decide)] at hversion hstatus
  rw [hbits] at hstatus
  exact ⟨hversion, hstatus, hcount, houtput⟩

/-- Nothing else of the test goes to an output, so it finds nothing there. -/
theorem not_forall_selfTest_finds_alias :
    ¬ ∀ (s : Simulator) (v : Verbosity) (r target : Register), r ∈ staging → target ≠ r →
      s.fault = some (.aliased r target) → ∃ ordinal expected actual,
        (file.run v Controller.selfTest.run s).1 =
          .error (.registerTest ordinal expected actual) := by
  intro h
  let s : Simulator := { fault := some (.aliased (.staged .x .rate) (.gpioOutput 0)) }
  obtain ⟨_, _, _, herror⟩ := h s .off (.staged .x .rate) (.gpioOutput 0) (by decide)
    (by decide) rfl
  have hok : (file.outcome Controller.selfTest.run s).1 = .ok () :=
    finds_nothing_of_output rfl trivial (by decide)
  rw [file.run_fst, hok] at herror
  cases herror

end Simulator

end PulseMill
