import PulseMill.Proofs.Conservation
import PulseMill.Proofs.SpinWait
set_option autoImplicit false

namespace PulseMill.Simulator

variable {s : Simulator} {k n : Nat}

theorem drain_drain (s : Simulator) (m n : Nat) : (s.drain m).drain n = s.drain (m + n) := by
  induction m generalizing s with
  | zero => rw [drain, Nat.zero_add]
  | succ m ih =>
    by_cases hempty : s.queue.isEmpty
    · have hnil : s.queue = [] := List.isEmpty_iff.1 hempty
      simp [drain_eq, hnil]
    · rw [Nat.add_right_comm, drain, drain, if_neg hempty, if_neg hempty, ih]

theorem drain_congr (h : min n s.queue.length = min k s.queue.length) : s.drain n = s.drain k := by
  have hdry : (!s.queue.isEmpty && decide (s.queue.length ≤ n)) =
      (!s.queue.isEmpty && decide (s.queue.length ≤ k)) := by
    congr 2
    exact propext ⟨fun _ => by omega, fun _ => by omega⟩
  rw [drain_eq, drain_eq, List.drop_eq_drop_iff.2 h, h, Bool.and_assoc, hdry, ← Bool.and_assoc]

theorem drain_of_le (h : k ≤ s.queue.length) :
    s.drain k = { s with
      queue := s.queue.drop k
      retired := s.retired + k
      sticky := (s.drain k).sticky } := by
  rw [drain_eq, Nat.min_eq_left h]

theorem isFull_drain_one (hpos : 1 ≤ s.depth) (hroom : s.queue.length ≤ s.depth) :
    (s.drain 1).isFull = false := by
  have hless : s.queue.length - 1 < s.depth := by omega
  simpa [drain_eq, isFull] using hless

/-- Nothing is wrong, and each poll lets a block retire. -/
structure Draining (s : Simulator) : Prop where
  fault : s.fault = none
  error : (s.forcedError || s.overflow) = false
  stop : s.emergency = false
  running : s.running = true
  autoDrain : s.autoDrain = true

namespace Draining

theorem drain (h : s.Draining) (n : Nat) : (s.drain n).Draining := by
  rw [drain_eq]
  exact ⟨h.fault, h.error, h.stop, h.running, h.autoDrain⟩

theorem read (h : s.Draining) :
    file.read .status s = ((s.drain 1).statusBits, s.drain 1) := by
  have hread : file.read .status s = s.readStatus := read_status h.fault
  rw [hread, readStatus, h.running, h.autoDrain, retireOne_eq_drain]
  rfl

theorem afterReads (h : s.Draining) (n : Nat) : file.afterReads s n = s.drain n := by
  induction n generalizing s with
  | zero => rfl
  | succ n ih =>
    rw [RegisterFile.afterReads, h.read, ih (h.drain 1), drain_drain, Nat.add_comm]

theorem nthStatus (h : s.Draining) (i : Nat) :
    file.nthStatus s i = ⟨(s.drain (i + 1)).statusBits⟩ := by
  rw [RegisterFile.nthStatus, h.afterReads, (h.drain i).read, drain_drain]

theorem settles_iff (h : s.Draining) (ready : Status → Bool) (i : Nat) :
    (file.nthStatus s i).Settles ready ↔ ready ⟨(s.drain (i + 1)).statusBits⟩ := by
  have hleft := h.drain (i + 1)
  simp [h.nthStatus, Status.Settles, hleft.error, hleft.stop]

theorem isIdle_iff (h : s.Draining) (n : Nat) :
    Status.isIdle ⟨(s.drain n).statusBits⟩ ↔ s.queue.length ≤ n := by
  simp [isBusy, drain_eq, h.running]

theorem verdict (h : s.Draining) (ready : Status → Bool) (k polls : Nat) :
    Simulator.verdict ready ⟨(s.drain k).statusBits⟩ polls =
      if ready ⟨(s.drain k).statusBits⟩ then .ok ⟨(s.drain k).statusBits⟩
      else .error (.timeout ⟨(s.drain k).statusBits⟩ polls) := by
  have hleft := h.drain k
  exact verdict_of_clear ((isStopped_statusBits _).trans hleft.stop)
    ((isError_statusBits _).trans hleft.error) polls

theorem awaitIdle_ends (h : s.Draining) (cfg : Controller.Settings) :
    let left := s.drain (min s.queue.length cfg.polls)
    file.outcome (Controller.awaitIdle cfg).run s =
        (if s.queue.length ≤ cfg.polls then .ok ⟨left.statusBits⟩
          else .error (.timeout ⟨left.statusBits⟩ cfg.polls), left) ∧
      file.trace (Controller.awaitIdle cfg).run s =
        file.statusReads s (min (max 1 s.queue.length) cfg.polls) := by
  intro left
  have hpolls : 1 ≤ cfg.polls := Nat.le_max_left ..
  obtain ⟨i, hlast⟩ : ∃ i, min (max 1 s.queue.length) cfg.polls = i + 1 :=
    ⟨min (max 1 s.queue.length) cfg.polls - 1, by omega⟩
  have hbefore : ∀ j < i, ¬ (file.nthStatus s j).Settles Status.isIdle := by
    intro j hj
    rw [h.settles_iff, h.isIdle_iff]
    omega
  have hends : (file.nthStatus s i).Settles Status.isIdle ∨ i + 1 = cfg.polls := by
    rw [h.settles_iff, h.isIdle_iff]
    omega
  have hidle : Status.isIdle ⟨(s.drain (i + 1)).statusBits⟩ ↔ s.queue.length ≤ cfg.polls := by
    rw [h.isIdle_iff]
    omega
  have hleft : s.drain (i + 1) = left := drain_congr (by omega)
  rw [hlast]
  refine ⟨?_, RegisterFile.trace_pollUntil_of_last (by omega) hbefore hends⟩
  rw [Controller.awaitIdle, RegisterFile.outcome_pollUntil_of_last (by omega) hbefore hends,
    h.nthStatus, h.verdict, h.afterReads]
  by_cases hfits : s.queue.length ≤ cfg.polls
  · rw [if_pos (hidle.2 hfits), if_pos hfits, hleft]
  · have hall : i + 1 = cfg.polls := by omega
    rw [if_neg (mt hidle.1 hfits), if_neg hfits, hleft, hall]

theorem awaitRoom_ends (h : s.Draining) (hpos : 1 ≤ s.depth) (hroom : s.queue.length ≤ s.depth)
    (cfg : Controller.Settings) :
    file.outcome (Controller.awaitRoom cfg).run s =
        (.ok ⟨(s.drain 1).statusBits⟩, s.drain 1) ∧
      file.trace (Controller.awaitRoom cfg).run s = file.statusReads s 1 := by
  have hpolls : 0 < cfg.polls := Nat.le_max_left ..
  have hfirst : ∀ j < 0, ¬ (file.nthStatus s j).Settles fun st => !st.isFull :=
    fun j hj => absurd hj (Nat.not_lt_zero j)
  have hfull : Status.isFull ⟨(s.drain 1).statusBits⟩ = false :=
    (isFull_statusBits _).trans (isFull_drain_one hpos hroom)
  have hsettles : (file.nthStatus s 0).Settles fun st => !st.isFull := by
    rw [h.settles_iff, hfull]
    rfl
  refine ⟨?_, RegisterFile.trace_pollUntil_of_last hpolls hfirst (.inl hsettles)⟩
  rw [Controller.awaitRoom, RegisterFile.outcome_pollUntil_of_last hpolls hfirst (.inl hsettles),
    h.nthStatus, h.verdict, h.afterReads, hfull]
  rfl

theorem sticky_drain (h : s.Draining) (n : Nat) :
    (s.drain n).sticky ↔ s.sticky ∨ 0 < s.queue.length ∧ (s.drain n).queue = [] := by
  simp [drain_eq, h.running, List.length_pos_iff]

end Draining

/-- In motion, with nothing wrong, a wait for the end succeeds just when there are no more blocks
than polls it may make. It polls until the queue is empty, and once if it is empty to begin with.
Otherwise it gives up with the last poll. Either way, each poll that finds a block has let the
oldest one retire and has changed nothing else, and the queue has run dry if that was the last one.
A wait for room is over with its first poll. -/
theorem waits_of_draining (depth : Nat) (es : List Stimulus) (cfg : Controller.Settings)
    (v : Verbosity) :
    let s := (({} : Simulator).withDepth depth).run es
    let n := s.queue.length
    let limit := max 1 cfg.pollLimit.toNat
    s.fault = none → s.forcedError = false → s.overflow = false → s.emergency = false →
    s.running = true → s.autoDrain = true →
    (let reads := file.trace (Controller.awaitIdle cfg).run s
      let ended := file.run v (Controller.awaitIdle cfg).run s
      let left := ended.2.1
      (n ≤ limit → ended.1 = .ok ⟨left.statusBits⟩ ∧ reads = file.statusReads s (max 1 n)) ∧
      (limit < n → ended.1 = .error (.timeout ⟨left.statusBits⟩ limit) ∧
        reads = file.statusReads s limit) ∧
      left = { s with
        queue := s.queue.drop (min n limit)
        retired := s.retired + min n limit
        sticky := left.sticky } ∧
      (Status.hasRunDry ⟨left.statusBits⟩ ↔
        Status.hasRunDry ⟨s.statusBits⟩ ∨ 0 < n ∧ left.queue = [])) ∧
    (let reads := file.trace (Controller.awaitRoom cfg).run s
      let ended := file.run v (Controller.awaitRoom cfg).run s
      let left := ended.2.1
      ended.1 = .ok ⟨left.statusBits⟩ ∧ reads = file.statusReads s 1 ∧
      left.queue = s.queue.drop (min n 1) ∧ left.retired = s.retired + min n 1) := by
  intro s n limit hfault hforced hoverflow hstop hrunning hdrain
  have h : s.Draining := ⟨hfault, by rw [hforced, hoverflow]; rfl, hstop, hrunning, hdrain⟩
  have hsound : s.Sound := (sound_withDepth depth).run es
  constructor
  · obtain ⟨houtcome, htrace⟩ := h.awaitIdle_ends cfg
    obtain ⟨log, hrun⟩ := RegisterFile.ends_iff.2 houtcome
    have hreads {k : Nat} (hk : min (max 1 n) limit = k) :
        file.trace (Controller.awaitIdle cfg).run s = file.statusReads s k := hk ▸ htrace
    rw [hrun]
    refine ⟨fun hfits => ⟨if_pos hfits, hreads (by omega)⟩,
      fun hmore => ⟨if_neg (Nat.not_le.2 hmore), hreads (by omega)⟩, ?_, ?_⟩
    · exact drain_of_le (Nat.min_le_left n limit)
    · rw [hasRunDry_statusBits, hasRunDry_statusBits]
      exact h.sticky_drain _
  · obtain ⟨houtcome, htrace⟩ := h.awaitRoom_ends hsound.depth_pos hsound.room cfg
    obtain ⟨log, hrun⟩ := RegisterFile.ends_iff.2 houtcome
    have hone : s.drain 1 = s.drain (min n 1) := drain_congr (by omega)
    have hleft := hone.trans (drain_of_le (Nat.min_le_left n 1))
    rw [hrun]
    exact ⟨rfl, htrace, congrArg queue hleft, congrArg retired hleft⟩

/-- Of three blocks, two are gone when a wait of two polls gives up. A wait of three polls is long
enough. -/
theorem waits_of_draining_three :
    let block : List Stimulus := [.write .command (Command.commit ||| Command.enable)]
    let s := (({} : Simulator).withDepth 4).run (block ++ block ++ block)
    let ended (limit : UInt32) := file.run .off (Controller.awaitIdle { pollLimit := limit }).run s
    s.queue.length = 3 ∧
      (ended 2).1 = .error (.timeout ⟨(ended 2).2.1.statusBits⟩ 2) ∧
      (ended 2).2.1.queue = s.queue.drop 2 ∧
      (ended 3).1 = .ok ⟨(ended 3).2.1.statusBits⟩ ∧ (ended 3).2.1.queue = [] := by
  intro block s ended
  have hqueue : s.queue.length = 3 := by decide
  have htwo := (waits_of_draining 4 (block ++ block ++ block) { pollLimit := 2 } .off rfl rfl rfl
    rfl rfl rfl).1
  have hthree := (waits_of_draining 4 (block ++ block ++ block) { pollLimit := 3 } .off rfl rfl rfl
    rfl rfl rfl).1
  refine ⟨hqueue, (htwo.2.1 (by decide)).1, ?_, (hthree.1 (by decide)).1, ?_⟩
  · exact congrArg queue htwo.2.2.1
  · exact congrArg queue hthree.2.2.1

end PulseMill.Simulator
