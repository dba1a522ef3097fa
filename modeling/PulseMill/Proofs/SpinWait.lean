import PulseMill.Proofs.LogLevel
import PulseMill.Proofs.WholeRun
set_option autoImplicit false

namespace PulseMill

variable {σ : Type}

namespace RegisterFile

def afterReads (file : RegisterFile σ) (s : σ) : Nat → σ
  | 0 => s
  | n + 1 => file.afterReads (file.read .status s).2 n

/-- What the next read shows after so many. -/
def nthStatus (file : RegisterFile σ) (s : σ) (i : Nat) : Status :=
  ⟨(file.read .status (file.afterReads s i)).1⟩

def statusReads (file : RegisterFile σ) (s : σ) (n : Nat) : List Access :=
  (List.range n).map fun i => .read .status (file.nthStatus s i).bits

theorem statusReads_succ (file : RegisterFile σ) (s : σ) (n : Nat) :
    file.statusReads s (n + 1) =
      .read .status (file.read .status s).1 :: file.statusReads (file.read .status s).2 n := by
  rw [statusReads, List.range_succ_eq_map, List.map_cons, List.map_map]
  rfl

theorem recorded_afterReads (file : RegisterFile σ) (s : σ) (before : List Access) (n : Nat) :
    file.recorded.afterReads (s, before) n =
      (file.afterReads s n, before ++ file.statusReads s n) := by
  induction n generalizing s before with
  | zero => simp [afterReads, statusReads]
  | succ n ih =>
    rw [statusReads_succ, List.append_cons]
    exact ih _ _

theorem recorded_nthStatus (file : RegisterFile σ) (s : σ) (before : List Access) (i : Nat) :
    file.recorded.nthStatus (s, before) i = file.nthStatus s i := by
  rw [nthStatus, recorded_afterReads]
  rfl

section

variable {file : RegisterFile σ} {cfg : Controller.Settings} {ready : Status → Bool}
  {i made more : Nat} {s : σ}

/-- By induction on the place of the last status. Each poll before it leaves one more behind and one
less to be made. -/
theorem outcome_poll_of_last (hmore : i ≤ more)
    (hbefore : ∀ j < i, ¬ (file.nthStatus s j).Settles ready)
    (hlast : (file.nthStatus s i).Settles ready ∨ i = more) :
    file.outcome (Controller.poll ready made more).run s =
      (Simulator.verdict ready (file.nthStatus s i) (made + i + 1), file.afterReads s (i + 1)) := by
  induction i generalizing made more s with
  | zero =>
    have hends : Status.Settles ⟨(file.read .status s).1⟩ ready ∨ more = 0 :=
      hlast.imp_right Eq.symm
    rw [outcome_poll, if_pos hends]
    rfl
  | succ i ih =>
    have hgoes : ¬ (Status.Settles ⟨(file.read .status s).1⟩ ready ∨ more = 0) := by
      rw [not_or]
      exact ⟨hbefore 0 (Nat.zero_lt_succ i), by omega⟩
    have hpolls : made + (i + 1) + 1 = made + 1 + i + 1 := by omega
    rw [outcome_poll, if_neg hgoes, hpolls]
    exact ih (by omega) (fun j hj => hbefore (j + 1) (Nat.succ_lt_succ hj))
      (hlast.imp_right fun h => by omega)

theorem outcome_pollUntil_of_last (hi : i < cfg.polls)
    (hbefore : ∀ j < i, ¬ (file.nthStatus s j).Settles ready)
    (hlast : (file.nthStatus s i).Settles ready ∨ i + 1 = cfg.polls) :
    file.outcome (Controller.pollUntil cfg ready).run s =
      (Simulator.verdict ready (file.nthStatus s i) (i + 1), file.afterReads s (i + 1)) := by
  have hlimit := cfg.polls_eq
  rw [Controller.pollUntil, outcome_poll_of_last (by omega) hbefore
    (hlast.imp_right fun h => by omega), Nat.zero_add]

theorem trace_pollUntil_of_last (hi : i < cfg.polls)
    (hbefore : ∀ j < i, ¬ (file.nthStatus s j).Settles ready)
    (hlast : (file.nthStatus s i).Settles ready ∨ i + 1 = cfg.polls) :
    file.trace (Controller.pollUntil cfg ready).run s = file.statusReads s (i + 1) := by
  have hrecorded := outcome_recorded file (Controller.pollUntil cfg ready).run s []
  rw [outcome_pollUntil_of_last hi (by simpa only [recorded_nthStatus] using hbefore)
    (by simpa only [recorded_nthStatus] using hlast), recorded_afterReads] at hrecorded
  exact (congrArg (fun ended => ended.2.2) hrecorded).symm

end

end RegisterFile

inductive Wait where
  | room
  | idle

namespace Wait

def attempt (cfg : Controller.Settings) : Wait → Controller.Attempt Status
  | room => Controller.awaitRoom cfg
  | idle => Controller.awaitIdle cfg

def ready : Wait → Status → Bool
  | room => fun st => !st.isFull
  | idle => Status.isIdle

theorem attempt_eq (cfg : Controller.Settings) (wait : Wait) :
    wait.attempt cfg = Controller.pollUntil cfg wait.ready := by
  cases wait <;> rfl

end Wait

/-- A wait reads the status and makes no other access. The first status that tells of a stop, of an
error, or of what is waited for is the last one that is read, and a stop counts before an error and
an error before all else. Without one the wait gives up when it has made as many polls as it may,
and at least one, whatever the limit. -/
theorem wait_ends (file : RegisterFile σ) (v : Verbosity) (cfg : Controller.Settings) (wait : Wait)
    (s : σ) :
    let st := file.nthStatus s
    let limit := max 1 cfg.pollLimit.toNat
    let reads := file.trace (wait.attempt cfg).run s
    let ended := file.run v (wait.attempt cfg).run s
    (∀ i < limit, (st i).Settles wait.ready → (∀ j < i, ¬ (st j).Settles wait.ready) →
      reads = file.statusReads s (i + 1) ∧ ended.2.1 = file.afterReads s (i + 1) ∧
      ended.1 =
        if (st i).isStopped then .error (.emergencyStop (st i))
        else if (st i).isError then .error (.fault (st i))
        else .ok (st i)) ∧
    ((∀ j < limit, ¬ (st j).Settles wait.ready) →
      reads = file.statusReads s limit ∧ ended.2.1 = file.afterReads s limit ∧
      ended.1 = .error (.timeout (st (limit - 1)) limit)) := by
  intro st limit reads ended
  have hfst : ended.1 = _ := file.run_fst v (wait.attempt cfg).run s
  have hstate : ended.2.1 = _ := file.run_state v (wait.attempt cfg).run s
  have hreads : reads = file.trace (wait.attempt cfg).run s := rfl
  rw [hfst, hstate, hreads, wait.attempt_eq]
  refine ⟨fun i hi hsettles hbefore => ?_, fun hnone => ?_⟩
  · rw [RegisterFile.trace_pollUntil_of_last hi hbefore (.inl hsettles),
      RegisterFile.outcome_pollUntil_of_last hi hbefore (.inl hsettles)]
    exact ⟨rfl, rfl, Simulator.verdict_of_settles hsettles _⟩
  · obtain ⟨i, hi⟩ : ∃ i, limit = i + 1 := ⟨limit - 1, by omega⟩
    have hbefore : ∀ j < i, ¬ (st j).Settles wait.ready := fun j hj => hnone j (by omega)
    have hlast : (st i).Settles wait.ready ∨ i + 1 = cfg.polls := .inr hi.symm
    have hless : i < cfg.polls := Nat.lt_of_succ_le (Nat.le_of_eq hi.symm)
    rw [RegisterFile.trace_pollUntil_of_last hless hbefore hlast,
      RegisterFile.outcome_pollUntil_of_last hless hbefore hlast, hi]
    exact ⟨rfl, rfl, Simulator.verdict_of_not_settles (hnone i (by omega)) _⟩

/-- The first status tells that blocks are in motion, and the second of an error next to the idle
bit. One poll is not enough to see the error, and with two it is not taken for the end. -/
theorem wait_ends_of_late_error :
    let scripted : Recorder := { script := [8, 20] }
    let st := Recorder.file.nthStatus scripted
    let ended (limit : UInt32) :=
      (Recorder.file.run .off (Wait.idle.attempt { pollLimit := limit }).run scripted).1
    ¬ (st 0).Settles Wait.idle.ready ∧ (st 1).isIdle ∧
      ended 1 = .error (.timeout (st 0) 1) ∧ ended 2 = .error (.fault (st 1)) := by
  intro scripted st ended
  have hbusy : ¬ (st 0).Settles Wait.idle.ready := by decide
  have herror : (st 1).Settles Wait.idle.ready := by decide
  have hfirst {k : Nat} (hk : k ≤ 1) : ∀ j < k, ¬ (st j).Settles Wait.idle.ready := by
    intro j hj
    obtain rfl : j = 0 := by omega
    exact hbusy
  have hone := (wait_ends Recorder.file .off { pollLimit := 1 } .idle scripted).2
    (hfirst (Nat.le_refl 1))
  have htwo := (wait_ends Recorder.file .off { pollLimit := 2 } .idle scripted).1 1 (by decide)
    herror (hfirst (Nat.le_refl 1))
  refine ⟨hbusy, by decide, hone.2.2, htwo.2.2.trans ?_⟩
  rw [if_neg (by decide), if_pos (by decide)]

end PulseMill
