import PulseMill.Proofs.Standstill
import PulseMill.Proofs.Zeroing
import PulseMill.Session
set_option autoImplicit false

/-!
A whole program on a fresh simulator: set up, reset, send all blocks, wait until they are done.
Where motion starts with the first commit, the status read after each commit lets that block
retire, so the queue is empty whenever a block is due. Without motion the queue fills up, and
the first block too many waits in vain.
-/

namespace PulseMill

def Controller.Settings.polls (cfg : Controller.Settings) : Nat := max 1 cfg.pollLimit.toNat

theorem Controller.Settings.polls_eq (cfg : Controller.Settings) :
    cfg.polls = cfg.pollLimit.toNat - 1 + 1 := by
  rw [polls]
  omega

theorem RegisterFile.outcome_execute {σ : Type} {file : RegisterFile σ} {cfg : Controller.Settings}
    {a : BlockArray Block} {n : Nat} {ended : Except HardwareError Unit} {s t : σ}
    (h : file.outcome (Controller.deliver cfg 0 a.rest) s = ((n, ended), t)) :
    file.outcome (Controller.execute cfg a) s =
      ((ended.map fun _ => n, a.seek (a.cursor + n)), t) := by
  rw [Controller.execute, outcome_bind, h]
  cases ended <;> rfl

namespace Simulator

variable {s : Simulator} {cfg : Controller.Settings}

theorem Still.outcome_setUp (h : s.Still) (h0 : s.word .sentinel0 = Register.sentinel0Value)
    (h1 : s.word .sentinel1 = Register.sentinel1Value)
    (hversion : s.word .version = Register.interfaceVersion) (v : Verbosity) :
    ∃ words, file.outcome (Controller.setUp v).run s = (.ok (), { s with words }) := by
  have hknown := outcome_identify h.fault
  rw [identityError_eq_none_iff.2 ⟨h0, h1, hversion⟩] at hknown
  refine ⟨s.words.cleared, ?_⟩
  rw [setUp_eq_identify_bind, RegisterFile.outcome_attempt_ok hknown]
  simp only [Controller.Attempt.run_lift_bind, Controller.Attempt.run_ite,
    Controller.Attempt.run_lift, Controller.Attempt.run_pure, RegisterFile.outcome_bind,
    outcome_zeroWritable h.fault]
  -- The log may take a status read, which changes nothing.
  split
  · rw [RegisterFile.outcome_bind, cleared, (h.words _).outcome_status]
    rfl
  · rfl

/-- At a standstill, and nothing is wrong. -/
structure Calm (s : Simulator) : Prop extends Still s where
  error : (s.forcedError || s.overflow) = false
  stop : s.emergency = false

theorem Calm.checkStatus (h : s.Calm) :
    Controller.checkStatus ⟨s.statusBits⟩ = .ok ⟨s.statusBits⟩ := by
  simp [Controller.checkStatus, h.stop, h.error]

theorem Calm.outcome_pollUntil (h : s.Calm) (cfg : Controller.Settings) (ready : Status → Bool) :
    file.outcome (Controller.pollUntil cfg ready).run s =
      (if ready ⟨s.statusBits⟩ then .ok ⟨s.statusBits⟩
        else .error (.timeout ⟨s.statusBits⟩ cfg.polls), s) := by
  have hstop : Status.isStopped ⟨s.statusBits⟩ = false := (isStopped_statusBits s).trans h.stop
  have herror : Status.isError ⟨s.statusBits⟩ = false := (isError_statusBits s).trans h.error
  rw [Controller.pollUntil, h.outcome_poll, verdict_of_clear hstop herror, Nat.zero_add,
    ← cfg.polls_eq]

theorem Calm.outcome_prepare (h : s.Calm) (cfg : Controller.Settings) (b : Block) :
    file.outcome (Controller.prepare cfg b).run s =
      (if s.isFull then .error (.timeout ⟨s.statusBits⟩ cfg.polls) else .ok (),
        { s with words := s.words.putAll b.stagingWrites }) := by
  have hcheck : noticesError cfg s = false := by simp [noticesError, h.error]
  generalize ht : ({ s with words := s.words.putAll b.stagingWrites } : Simulator) = t
  have hstage := h.outcome_stage hcheck b
  rw [ht] at hstage
  have hcalm : t.Calm := ht ▸ ⟨h.words _, h.error, h.stop⟩
  have hfull : t.isFull = s.isFull := by rw [← ht, isFull_words]
  have hbits : t.statusBits = s.statusBits := by rw [← ht, statusBits_words]
  have hwait : file.outcome (Controller.awaitRoom cfg).run t =
      (if !s.isFull then .ok ⟨s.statusBits⟩ else .error (.timeout ⟨s.statusBits⟩ cfg.polls),
        t) := by
    rw [Controller.awaitRoom, hcalm.outcome_pollUntil, isFull_statusBits, hfull, hbits]
  rw [Controller.prepare, RegisterFile.outcome_attempt_ok hstage]
  cases hroom : s.isFull with
  | true =>
    rw [hroom] at hwait
    exact RegisterFile.outcome_attempt_error hwait _
  | false =>
    rw [hroom] at hwait
    exact RegisterFile.outcome_attempt_ok hwait _

theorem outcome_commit (h : s.fault = none) (cfg : Controller.Settings) :
    file.outcome (Controller.commit cfg.startOnCommit) s = ((), s.command (commitWord cfg)) :=
  congrArg (Prod.mk ()) (write_command h _)

theorem Calm.outcome_deliver_full (h : s.Calm) (hfull : s.isFull = true)
    (cfg : Controller.Settings) (sent : Nat) (b : Block) (more : List Block) :
    ∃ words, file.outcome (Controller.deliver cfg sent (b :: more)) s =
      ((sent, .error (.timeout ⟨s.statusBits⟩ cfg.polls)), { s with words }) := by
  have hprepare := h.outcome_prepare cfg b
  rw [if_pos hfull] at hprepare
  refine ⟨s.words.putAll b.stagingWrites, ?_⟩
  rw [Controller.deliver, RegisterFile.outcome_bind, hprepare]
  rfl

theorem Calm.outcome_deliver_cons (h : s.Calm) (hroom : s.isFull = false)
    (cfg : Controller.Settings) (sent : Nat) (b : Block) (more : List Block) :
    ∃ words, ∀ st next,
      file.outcome Controller.checkedStatus.run
        { s with
          words
          queue := s.queue ++ [b]
          running := s.running || cfg.startOnCommit
          committed := s.committed + 1 } = (.ok st, next) →
      file.outcome (Controller.deliver cfg sent (b :: more)) s =
        file.outcome (Controller.deliver cfg (sent + 1) more) next := by
  have hprepare := h.outcome_prepare cfg b
  rw [hroom] at hprepare
  generalize ht : ({ s with words := s.words.putAll b.stagingWrites } : Simulator) = t at hprepare
  have hwords : t.words = s.words.putAll b.stagingWrites := by rw [← ht]
  have hblock : t.stagedBlock = b := stagedBlock_of_words hwords
  have hcommit := outcome_commit (s := t) (by rw [← ht]; exact h.fault) cfg
  rw [command_commitWord (by rw [← ht, isFull_words, hroom]) (by rw [← ht]; exact h.stop),
    hblock] at hcommit
  refine ⟨t.words.put .command (commitWord cfg), fun st next hcheck => ?_⟩
  have hcommit : file.outcome (Controller.commit cfg.startOnCommit) t =
      ((), { s with
        words := t.words.put .command (commitWord cfg)
        queue := s.queue ++ [b]
        running := s.running || cfg.startOnCommit
        committed := s.committed + 1 }) := by
    rw [hcommit, ← ht]
  rw [Controller.deliver, RegisterFile.outcome_bind, hprepare]
  simp only [Bool.false_eq_true, if_false]
  rw [RegisterFile.outcome_bind, hcommit, RegisterFile.outcome_bind, hcheck]

theorem Calm.outcome_awaitIdle (h : s.Calm) (cfg : Controller.Settings) :
    file.outcome (Controller.awaitIdle cfg).run s = (.ok ⟨s.statusBits⟩, s) := by
  rw [Controller.awaitIdle, h.outcome_pollUntil, isIdle_statusBits, h.idle]
  rfl

/-- Nothing retires, and the queue takes as many blocks as there is room for. -/
theorem Calm.outcome_deliver_held (hstart : cfg.startOnCommit = false) (h : s.Calm)
    (hrunning : s.running = false) (sent : Nat) (blocks : List Block) :
    ∃ words, let room := s.depth - s.queue.length
      let t := { s with
        words
        queue := s.queue ++ blocks.take room
        committed := s.committed + min room blocks.length }
      file.outcome (Controller.deliver cfg sent blocks) s =
        ((sent + min room blocks.length,
          if blocks.length ≤ room then .ok () else .error (.timeout ⟨t.statusBits⟩ cfg.polls)),
          t) := by
  induction blocks generalizing s sent with
  | nil => exact ⟨s.words, by simp [Controller.deliver]⟩
  | cons b more ih =>
    cases hfull : s.isFull with
    | true =>
      have hroom : s.depth - s.queue.length = 0 := by
        have : s.depth ≤ s.queue.length := by simpa [isFull] using hfull
        omega
      obtain ⟨words, hdeliver⟩ := h.outcome_deliver_full hfull cfg sent b more
      refine ⟨words, ?_⟩
      rw [hdeliver]
      simp [hroom, statusBits_words]
    | false =>
      obtain ⟨room, hroom⟩ : ∃ room, s.depth - s.queue.length = room + 1 := by
        have : s.queue.length < s.depth := by simpa [isFull] using hfull
        exact ⟨s.depth - s.queue.length - 1, by omega⟩
      obtain ⟨words, hnext⟩ := h.outcome_deliver_cons hfull cfg sent b more
      rw [hrunning, hstart] at hnext
      generalize hu : ({ s with
        words
        queue := s.queue ++ [b]
        running := false || false
        committed := s.committed + 1 } : Simulator) = u at hnext
      have hcalm : u.Calm := hu ▸ ⟨⟨h.fault, rfl⟩, h.error, h.stop⟩
      have hcheck := hcalm.outcome_checkedStatus
      rw [hcalm.checkStatus] at hcheck
      obtain ⟨words', hrest⟩ := ih hcalm (by rw [← hu]; rfl) (sent + 1)
      have hless : u.depth - u.queue.length = room := by
        rw [← hu]
        simp
        omega
      refine ⟨words', ?_⟩
      rw [hnext _ _ hcheck, hrest, hless, hroom]
      subst hu
      simp [Nat.add_min_add_right, hrunning, Nat.add_assoc, Nat.add_comm 1]

theorem outcome_checkedStatus_retires {b : Block} (hfault : s.fault = none)
    (herror : (s.forcedError || s.overflow) = false) (hstop : s.emergency = false)
    (hauto : s.autoDrain = true) (hrunning : s.running = true) (hqueue : s.queue = [b]) :
    ∃ st, file.outcome Controller.checkedStatus.run s =
      (.ok st, { s with queue := [], retired := s.retired + 1, sticky := true }) := by
  have hread : s.readStatus =
      (statusBits { s with queue := [], retired := s.retired + 1, sticky := true },
        { s with queue := [], retired := s.retired + 1, sticky := true }) := by
    simp [readStatus, retireOne, hauto, hrunning, hqueue]
  refine ⟨⟨statusBits { s with queue := [], retired := s.retired + 1, sticky := true }⟩, ?_⟩
  rw [outcome_checkedStatus hfault, hread, Controller.checkStatus, isStopped_statusBits,
    isError_statusBits, if_neg (by simp [hstop]), if_neg (by simp [herror])]

/-- Each block has retired before the next is staged. -/
theorem Calm.outcome_deliver_started (hstart : cfg.startOnCommit = true) (h : s.Calm)
    (hauto : s.autoDrain = true) (hqueue : s.queue = []) (hdepth : 1 ≤ s.depth) (sent : Nat)
    (blocks : List Block) :
    ∃ words, file.outcome (Controller.deliver cfg sent blocks) s =
      ((sent + blocks.length, .ok ()),
        { s with
          words
          running := s.running || !blocks.isEmpty
          sticky := s.sticky || !blocks.isEmpty
          committed := s.committed + blocks.length
          retired := s.retired + blocks.length }) := by
  induction blocks generalizing s sent with
  | nil => exact ⟨s.words, by simp [Controller.deliver]⟩
  | cons b more ih =>
    have hroom : s.isFull = false := by
      simp [isFull, hqueue]
      omega
    obtain ⟨words, hnext⟩ := h.outcome_deliver_cons hroom cfg sent b more
    obtain ⟨st, hcheck⟩ := outcome_checkedStatus_retires (b := b)
      (s := { s with
        words
        queue := s.queue ++ [b]
        running := s.running || cfg.startOnCommit
        committed := s.committed + 1 })
      h.fault h.error h.stop hauto (by simp [hstart]) (by simp [hqueue])
    have hnext := hnext _ _ hcheck
    generalize hu : ({ s with
      words
      queue := []
      running := s.running || cfg.startOnCommit
      sticky := true
      committed := s.committed + 1
      retired := s.retired + 1 } : Simulator) = u at hnext
    have hcalm : u.Calm := hu ▸ ⟨⟨h.fault, by simp [isBusy]⟩, h.error, h.stop⟩
    obtain ⟨words', hrest⟩ := ih hcalm (by rw [← hu, hauto]) (by rw [← hu])
      (by rw [← hu]; exact hdepth) (sent + 1)
    refine ⟨words', ?_⟩
    rw [hnext, hrest]
    subst hu
    simp [hstart, hqueue, Nat.add_assoc, Nat.add_comm 1]

section

variable {v : Verbosity} {a b : BlockArray Block} {s₀ s₁ s₂ s₃ s₄ : Simulator}

theorem outcome_runProgram {r : Except HardwareError Nat}
    (hsetUp : file.outcome (Controller.setUp v).run s₀ = (.ok (), s₁))
    (hreset : file.outcome Controller.reset s₁ = ((), s₂))
    (hexecute : file.outcome (Controller.execute cfg a) s₂ = ((r, b), s₃)) :
    file.outcome (Session.runProgram v cfg a).run s₀ =
      file.outcome (do
        let sent ← ExceptT.mk (.done r)
        let st ← Controller.awaitIdle cfg
        return (sent, st) : Controller.Attempt (Nat × Status)).run s₃ := by
  have hsent : file.outcome (Prod.fst <$> Controller.execute cfg a) s₂ = (r, s₃) := by
    rw [map_eq_pure_bind, RegisterFile.outcome_bind, hexecute]
    rfl
  rw [Session.runProgram, RegisterFile.outcome_attempt_ok hsetUp,
    Controller.Attempt.run_lift_bind, RegisterFile.outcome_bind, hreset, ExceptT.run_bind,
    RegisterFile.outcome_bind, ExceptT.run_mk, hsent]
  rfl

theorem outcome_runProgram_ok {n : Nat} {st : Status}
    (hsetUp : file.outcome (Controller.setUp v).run s₀ = (.ok (), s₁))
    (hreset : file.outcome Controller.reset s₁ = ((), s₂))
    (hexecute : file.outcome (Controller.execute cfg a) s₂ = ((.ok n, b), s₃))
    (hidle : file.outcome (Controller.awaitIdle cfg).run s₃ = (.ok st, s₄)) :
    file.outcome (Session.runProgram v cfg a).run s₀ = (.ok (n, st), s₄) :=
  (outcome_runProgram hsetUp hreset hexecute).trans (RegisterFile.outcome_attempt_ok hidle _)

theorem outcome_runProgram_error {e : HardwareError}
    (hsetUp : file.outcome (Controller.setUp v).run s₀ = (.ok (), s₁))
    (hreset : file.outcome Controller.reset s₁ = ((), s₂))
    (hexecute : file.outcome (Controller.execute cfg a) s₂ = ((.error e, b), s₃)) :
    file.outcome (Session.runProgram v cfg a).run s₀ = (.error e, s₃) :=
  (outcome_runProgram hsetUp hreset hexecute).trans rfl

end

def fresh (depth : Nat) : Simulator := ({} : Simulator).withDepth depth

theorem fresh_calm (depth : Nat) (words : Words) : Calm { fresh depth with words } :=
  ⟨⟨rfl, rfl⟩, rfl, rfl⟩

theorem outcome_setUp_fresh (depth : Nat) (v : Verbosity) :
    ∃ words, file.outcome (Controller.setUp v).run (fresh depth) =
      (.ok (), { fresh depth with words }) := by
  refine Still.outcome_setUp (fresh_calm depth .initial).toStill ?_ ?_ ?_ v <;>
    simp [word, Words.initial, Words.get_put_of_ne]

theorem command_reset (s : Simulator) :
    s.command Command.reset = { s.flush with words := s.words.put .command Command.reset } := rfl

theorem outcome_reset_fresh (depth : Nat) (words : Words) :
    ∃ words', file.outcome Controller.reset { fresh depth with words } =
      ((), { fresh depth with words := words' }) :=
  ⟨words.put .command Command.reset, congrArg (Prod.mk ()) <|
    (write_command (s := { fresh depth with words }) rfl Command.reset).trans (command_reset _)⟩

/-- What a fresh simulator becomes when all blocks have moved through its queue. -/
def started (depth : Nat) (words : Words) (a : BlockArray Block) : Simulator :=
  { fresh depth with
    words
    running := !a.toList.isEmpty
    sticky := !a.toList.isEmpty
    committed := a.length
    retired := a.length }

/-- What a fresh simulator becomes when its queue has taken all blocks there was room for. -/
def held (depth : Nat) (words : Words) (a : BlockArray Block) : Simulator :=
  { fresh depth with
    words
    queue := a.toList.take (fresh depth).depth
    committed := min (fresh depth).depth a.length }

theorem outcome_execute_started (hstart : cfg.startOnCommit = true) (depth : Nat) (words : Words)
    (a : BlockArray Block) :
    ∃ words', file.outcome (Controller.execute cfg a.rewind) { fresh depth with words } =
      ((.ok a.length, a.seek a.length), started depth words' a) := by
  obtain ⟨words', h⟩ := (fresh_calm depth words).outcome_deliver_started hstart rfl rfl
    (Nat.le_max_left 1 _) 0 a.toList
  refine ⟨words', (RegisterFile.outcome_execute h).trans ?_⟩
  simp [started, fresh, withDepth, BlockArray.toList, BlockArray.length, BlockArray.rewind,
    BlockArray.seek, Except.map]

theorem outcome_execute_held (hstart : cfg.startOnCommit = false) (depth : Nat) (words : Words)
    (a : BlockArray Block) :
    ∃ words', file.outcome (Controller.execute cfg a.rewind) { fresh depth with words } =
      ((if a.length ≤ (fresh depth).depth then .ok a.length
          else .error (.timeout ⟨(held depth words' a).statusBits⟩ cfg.polls),
        a.seek (min (fresh depth).depth a.length)), held depth words' a) := by
  obtain ⟨words', h⟩ := (fresh_calm depth words).outcome_deliver_held hstart rfl 0 a.toList
  refine ⟨words', (RegisterFile.outcome_execute h).trans ?_⟩
  have hn : a.toList.length = a.length := rfl
  have hqueue : (fresh depth).queue = [] := rfl
  have hcommitted : (fresh depth).committed = 0 := rfl
  by_cases hfits : a.length ≤ (fresh depth).depth <;>
    simp [held, hn, hqueue, hcommitted, hfits, Except.map, BlockArray.rewind, BlockArray.seek]

theorem calm_of_started (depth : Nat) (words : Words) (a : BlockArray Block) :
    (started depth words a).Calm := by
  refine ⟨⟨rfl, ?_⟩, rfl, rfl⟩
  simp [isBusy, started, fresh, withDepth]

theorem calm_of_held (depth : Nat) (words : Words) (a : BlockArray Block) :
    (held depth words a).Calm := ⟨⟨rfl, rfl⟩, rfl, rfl⟩

theorem statusBits_eq_flags (s : Simulator) :
    s.statusBits = flags s.isFull s.queue.isEmpty (s.forcedError || s.overflow) s.isBusy
      s.emergency s.sticky := rfl

theorem statusBits_of_started (depth : Nat) (words : Words) (a : BlockArray Block) :
    (started depth words a).statusBits =
      Status.empty ||| Status.idle ||| if a.length = 0 then 0 else Status.sticky := by
  have hfull : (started depth words a).isFull = false := by
    simp [isFull, started, fresh, withDepth]
  have hempty : a.toList.isEmpty = decide (a.length = 0) := by
    rw [Bool.eq_iff_iff, List.isEmpty_iff_length_eq_zero, decide_eq_true_eq]
    rfl
  rw [statusBits_eq_flags, hfull, (calm_of_started depth words a).idle]
  change flags false true false false false (!a.toList.isEmpty) = _
  rw [hempty]
  by_cases hn : a.length = 0 <;> simp only [hn, if_true, if_false] <;> decide

theorem statusBits_of_held {depth : Nat} (words : Words) {a : BlockArray Block}
    (h : (fresh depth).depth < a.length) :
    (held depth words a).statusBits = Status.full ||| Status.idle := by
  have hlength : (held depth words a).queue.length = (fresh depth).depth :=
    List.length_take.trans (Nat.min_eq_left (Nat.le_of_lt h))
  have hfull : (held depth words a).isFull = true := by
    rw [isFull, hlength]
    exact decide_eq_true (Nat.le_refl _)
  have hempty : (held depth words a).queue.isEmpty = false := by
    rw [List.isEmpty_eq_false_iff, ← List.length_pos_iff, hlength]
    exact Nat.le_max_left 1 _
  rw [statusBits_eq_flags, hfull, hempty, (calm_of_held depth words a).idle]
  change flags true false false false false false = _
  decide

/-- The whole command on a fresh simulator, whose queue has room for `d` of the `n` blocks. -/
theorem fresh_run (v : Verbosity) (cfg : Controller.Settings) (depth : Nat)
    (a : BlockArray Block) :
    let d := max 1 (min depth 16)
    let n := a.length
    ∃ s₁ s₂ s₃,
      file.Ends v (Controller.setUp v).run (fresh depth) (.ok ()) s₁ ∧
      file.Ends v Controller.reset s₁ () s₂ ∧
      (cfg.startOnCommit = true →
        let st : Status := ⟨Status.empty ||| Status.idle ||| if n = 0 then 0 else Status.sticky⟩
        file.Ends v (Controller.execute cfg a.rewind) s₂ (.ok n, a.seek n) s₃ ∧
        file.Ends v (Controller.awaitIdle cfg).run s₃ (.ok st) s₃ ∧
        file.Ends v (Session.runProgram v cfg a.rewind).run (fresh depth) (.ok (n, st)) s₃ ∧
        s₃.queue = [] ∧ s₃.committed = n ∧ s₃.retired = n ∧ s₃.statusBits = st.bits) ∧
      (cfg.startOnCommit = false → n ≤ d →
        let st : Status := ⟨s₃.statusBits⟩
        file.Ends v (Controller.execute cfg a.rewind) s₂ (.ok n, a.seek n) s₃ ∧
        file.Ends v (Controller.awaitIdle cfg).run s₃ (.ok st) s₃ ∧
        file.Ends v (Session.runProgram v cfg a.rewind).run (fresh depth) (.ok (n, st)) s₃ ∧
        s₃.queue = a.toList ∧ s₃.committed = n ∧ s₃.retired = 0) ∧
      (cfg.startOnCommit = false → d < n →
        let e := .timeout ⟨Status.full ||| Status.idle⟩ (max 1 cfg.pollLimit.toNat)
        file.Ends v (Controller.execute cfg a.rewind) s₂ (.error e, a.seek d) s₃ ∧
        file.Ends v (Session.runProgram v cfg a.rewind).run (fresh depth) (.error e) s₃ ∧
        s₃.queue = a.toList.take d ∧ s₃.committed = d ∧ s₃.retired = 0) := by
  intro d n
  obtain ⟨words₁, hsetUp⟩ := outcome_setUp_fresh depth v
  obtain ⟨words₂, hreset⟩ := outcome_reset_fresh depth words₁
  simp only [RegisterFile.ends_iff]
  cases hstart : cfg.startOnCommit with
  | true =>
    obtain ⟨words₃, hexecute⟩ := outcome_execute_started hstart depth words₂ a
    have hcalm := calm_of_started depth words₃ a
    have hbits := statusBits_of_started depth words₃ a
    generalize ht : started depth words₃ a = t at hexecute hcalm hbits
    have hidle := hcalm.outcome_awaitIdle cfg
    rw [hbits] at hidle
    refine ⟨_, _, t, hsetUp, hreset, fun _ => ⟨hexecute, hidle,
      outcome_runProgram_ok hsetUp hreset hexecute hidle, ?_⟩, nofun, nofun⟩
    subst ht
    exact ⟨rfl, rfl, rfl, hbits⟩
  | false =>
    obtain ⟨words₃, hexecute⟩ := outcome_execute_held hstart depth words₂ a
    have hidle := (calm_of_held depth words₃ a).outcome_awaitIdle cfg
    refine ⟨_, _, held depth words₃ a, hsetUp, hreset, nofun,
      fun _ (hfits : a.length ≤ (fresh depth).depth) => ?_,
      fun _ (hover : (fresh depth).depth < a.length) => ?_⟩
    · rw [if_pos hfits, Nat.min_eq_right hfits] at hexecute
      exact ⟨hexecute, hidle, outcome_runProgram_ok hsetUp hreset hexecute hidle,
        List.take_of_length_le hfits, Nat.min_eq_right hfits, rfl⟩
    · rw [if_neg (Nat.not_le.2 hover), Nat.min_eq_left (Nat.le_of_lt hover),
        statusBits_of_held words₃ hover] at hexecute
      exact ⟨hexecute, outcome_runProgram_error hsetUp hreset hexecute, rfl,
        Nat.min_eq_left (Nat.le_of_lt hover), rfl⟩

end Simulator

end PulseMill
