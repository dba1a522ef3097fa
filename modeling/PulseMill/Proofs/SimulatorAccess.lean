import PulseMill.Proofs.Delivery
import PulseMill.Proofs.Questions
import PulseMill.Simulator
set_option autoImplicit false

namespace PulseMill.Simulator

def flags (full empty error busy stop sticky : Bool) : UInt32 :=
  let bit (on : Bool) (b : UInt32) : UInt32 := if on then b else 0
  bit full Status.full ||| bit empty Status.empty ||| bit error Status.error |||
    (if busy then Status.busy else Status.idle) ||| bit stop Status.stop |||
    bit sticky Status.sticky

theorem isFull_flags : ∀ full empty error busy stop sticky,
    Status.isFull ⟨flags full empty error busy stop sticky⟩ = full := by decide

theorem isError_flags : ∀ full empty error busy stop sticky,
    Status.isError ⟨flags full empty error busy stop sticky⟩ = error := by decide

theorem isStopped_flags : ∀ full empty error busy stop sticky,
    Status.isStopped ⟨flags full empty error busy stop sticky⟩ = stop := by decide

theorem isEmpty_flags : ∀ full empty error busy stop sticky,
    Status.isEmpty ⟨flags full empty error busy stop sticky⟩ = empty := by decide

theorem isBusy_flags : ∀ full empty error busy stop sticky,
    Status.isBusy ⟨flags full empty error busy stop sticky⟩ = busy := by decide

theorem isIdle_flags : ∀ full empty error busy stop sticky,
    Status.isIdle ⟨flags full empty error busy stop sticky⟩ = !busy := by decide

theorem hasRunDry_flags : ∀ full empty error busy stop sticky,
    Status.hasRunDry ⟨flags full empty error busy stop sticky⟩ = sticky := by decide

theorem flags_lt : ∀ full empty error busy stop sticky,
    flags full empty error busy stop sticky < 2 * Status.sticky := by decide

@[simp] theorem isFull_statusBits (s : Simulator) : Status.isFull ⟨s.statusBits⟩ = s.isFull :=
  isFull_flags ..

@[simp] theorem isError_statusBits (s : Simulator) :
    Status.isError ⟨s.statusBits⟩ = (s.forcedError || s.overflow) := isError_flags ..

@[simp] theorem isStopped_statusBits (s : Simulator) :
    Status.isStopped ⟨s.statusBits⟩ = s.emergency := isStopped_flags ..

@[simp] theorem isEmpty_statusBits (s : Simulator) :
    Status.isEmpty ⟨s.statusBits⟩ = s.queue.isEmpty := isEmpty_flags ..

@[simp] theorem isBusy_statusBits (s : Simulator) : Status.isBusy ⟨s.statusBits⟩ = s.isBusy :=
  isBusy_flags ..

@[simp] theorem isIdle_statusBits (s : Simulator) : Status.isIdle ⟨s.statusBits⟩ = !s.isBusy :=
  isIdle_flags ..

@[simp] theorem hasRunDry_statusBits (s : Simulator) :
    Status.hasRunDry ⟨s.statusBits⟩ = s.sticky := hasRunDry_flags ..

theorem statusBits_lt (s : Simulator) : s.statusBits < 2 * Status.sticky := flags_lt ..

variable {s t u : Simulator}

theorem read_status (h : s.fault = none) : read .status s = s.readStatus := by
  simp [read, resolve, distort, h]

theorem read_of_ne {r : Register} (h : s.fault = none) (hr : r ≠ .status) :
    read r s = (s.word r, s) := by
  cases r <;> first | contradiction | simp [read, resolve, distort, h]

theorem write_command (h : s.fault = none) (w : UInt32) : write .command w s = s.command w := by
  simp [write, resolve, h]

theorem write_staged (h : s.fault = none) (axis : HardwareAxis) (field : AxisField) (w : UInt32) :
    write (.staged axis field) w s = s.setWord (.staged axis field) w := by
  simp [write, resolve, h]

theorem write_of_ne {r : Register} {w : UInt32} (h : s.fault = none) (hr : r ≠ .command) :
    write r w s = s ∨ write r w s = s.setWord r w := by
  cases r <;> first | contradiction | simp [write, resolve, h]

theorem bits_of_read_status {w : UInt32} (h : s.fault = none) (hr : read .status s = (w, t)) :
    w = t.statusBits := by
  rw [read_status h] at hr
  obtain ⟨rfl, rfl⟩ := Prod.mk.inj hr
  rfl

theorem retireOne_words (s : Simulator) : s.retireOne.words = s.words := by
  unfold retireOne
  split <;> rfl

theorem drain_eq (s : Simulator) (n : Nat) :
    s.drain n =
      { s with
        queue := s.queue.drop n
        retired := s.retired + min n s.queue.length
        sticky := s.sticky || (s.running && !s.queue.isEmpty && s.queue.length ≤ n) } := by
  induction n generalizing s with
  | zero =>
    obtain ⟨words, queue⟩ := s
    cases queue <;> simp [drain]
  | succ n ih =>
    obtain ⟨words, queue⟩ := s
    cases queue with
    | nil => simp [drain]
    | cons b queue =>
      simp only [drain, List.isEmpty_cons, Bool.false_eq_true, if_false, ih, retireOne]
      -- The flag depends on whether this block was the last.
      cases queue with
      | nil => simp
      | cons second queue =>
        simp
        omega

theorem retireOne_eq_drain (s : Simulator) : s.retireOne = s.drain 1 := by
  cases hq : s.queue <;> simp [drain, retireOne, hq]

theorem read_words (h : s.fault = none) (r : Register) : (read r s).2.words = s.words := by
  by_cases hr : r = .status
  · rw [hr, read_status h, readStatus]
    split
    · exact s.retireOne_words
    · rfl
  · rw [read_of_ne h hr]

def asks (w bit : UInt32) : Bool := w &&& bit ≠ 0

theorem asks_of_eq_zero {w bit : UInt32} (h : w &&& bit = 0) : asks w bit = false := by
  simp [asks, h]

def resetPart (s : Simulator) (w : UInt32) : Simulator :=
  if asks w Command.reset then s.flush else s

def clearPart (s : Simulator) (w : UInt32) : Simulator :=
  if asks w Command.clearSticky then { s with sticky := false } else s

def stopPart (s : Simulator) (w : UInt32) : Simulator :=
  if asks w Command.stop then s.trip else s

def commitPart (s : Simulator) (w : UInt32) : Simulator :=
  if asks w Command.commit && !s.emergency then s.commitStaged else s

def enablePart (s : Simulator) (w : UInt32) : Simulator :=
  if asks w Command.enable && !s.emergency then { s with running := true } else s

theorem command_eq (s : Simulator) (w : UInt32) :
    s.command w =
      (((((s.resetPart w).clearPart w).stopPart w).commitPart w).enablePart w).setWord
        .command w := rfl

/-- What the reset of a command leaves in the queue. -/
def kept (s : Simulator) (w : UInt32) : List Block :=
  if asks w Command.reset then [] else s.queue

/-- A stop is latched once the reset and the stop of a command are done. -/
def stopsAt (s : Simulator) (w : UInt32) : Bool :=
  (s.emergency && !asks w Command.reset) || asks w Command.stop

def commits (s : Simulator) (w : UInt32) : Bool := asks w Command.commit && !s.stopsAt w

def hasRoom (s : Simulator) (w : UInt32) : Bool := (s.kept w).length < s.depth

def accepts (s : Simulator) (w : UInt32) : Bool := s.commits w && s.hasRoom w

theorem stopPart_clearPart_resetPart (s : Simulator) (w : UInt32) :
    ((s.resetPart w).clearPart w).stopPart w =
      { s with
        queue := s.kept w
        running := s.running && !asks w Command.reset && !asks w Command.stop
        overflow := s.overflow && !asks w Command.reset
        emergency := s.stopsAt w
        sticky := s.sticky && !asks w Command.reset && !asks w Command.clearSticky } := by
  unfold resetPart clearPart stopPart kept stopsAt
  cases asks w Command.reset <;> cases asks w Command.clearSticky <;>
    cases asks w Command.stop <;> simp [flush, trip]

/-- All that a command does, whatever it asks for. -/
theorem command_law (s : Simulator) (w : UInt32) :
    s.command w =
      { s with
        words := s.words.put .command w
        queue := s.kept w ++ if s.accepts w then [s.stagedBlock] else []
        running := (s.running && !asks w Command.reset && !asks w Command.stop) ||
          (asks w Command.enable && !s.stopsAt w)
        overflow := (s.overflow && !asks w Command.reset) || (s.commits w && !s.hasRoom w)
        emergency := s.stopsAt w
        sticky := s.sticky && !asks w Command.reset && !asks w Command.clearSticky
        committed := s.committed + if s.accepts w then 1 else 0 } := by
  rw [command_eq, stopPart_clearPart_resetPart]
  unfold enablePart commitPart commitStaged accepts commits hasRoom isFull
  cases asks w Command.commit <;> cases asks w Command.enable <;> cases s.stopsAt w <;>
    by_cases hroom : (s.kept w).length < s.depth <;>
    simp [hroom, setWord, stagedBlock, stagedWords, word, Nat.not_le.2, Nat.not_lt.1]

theorem command_apart (h : s.emergency = true → s.running = false) (w : UInt32)
    (hstop : (s.command w).emergency = true) : (s.command w).running = false := by
  rw [command_law] at hstop ⊢
  have hstop : s.stopsAt w = true := hstop
  have hstill : (s.running && !asks w Command.reset && !asks w Command.stop) = false := by
    -- Either the command brings the stop, or it was latched before.
    cases hasks : asks w Command.stop with
    | true => simp
    | false =>
      have hlatched : s.emergency = true := by simp_all [stopsAt]
      simp [h hlatched]
  simp [hstill, hstop]

/-- From `s` to `t` the blocks `sent` were committed, and the oldest ones retired. -/
structure Moves (s : Simulator) (sent : List Block) (t : Simulator) : Prop where
  queue : ∃ gone, s.queue ++ sent = gone ++ t.queue ∧ t.retired = s.retired + gone.length
  committed : t.committed = s.committed + sent.length
  overflow : t.overflow = s.overflow
  fault : t.fault = s.fault

namespace Moves

theorem refl (s : Simulator) : Moves s [] s :=
  ⟨⟨[], by simp, rfl⟩, rfl, rfl, rfl⟩

theorem trans {sent more : List Block} (h : Moves s sent t) (k : Moves t more u) :
    Moves s (sent ++ more) u := by
  obtain ⟨gone, hq, hr⟩ := h.queue
  obtain ⟨gone', hq', hr'⟩ := k.queue
  refine ⟨⟨gone ++ gone', ?_, ?_⟩, ?_, k.overflow.trans h.overflow, k.fault.trans h.fault⟩
  · rw [← List.append_assoc, hq, List.append_assoc, hq', List.append_assoc]
  · rw [hr', hr, List.length_append]
    omega
  · rw [k.committed, h.committed, List.length_append]
    omega

theorem of_eq (hq : t.queue = s.queue) (hr : t.retired = s.retired)
    (hc : t.committed = s.committed) (ho : t.overflow = s.overflow) (hf : t.fault = s.fault) :
    Moves s [] t :=
  ⟨⟨[], by simp [hq], by simp [hr]⟩, hc, ho, hf⟩

end Moves

theorem drain_moves (s : Simulator) (n : Nat) : Moves s [] (s.drain n) := by
  rw [drain_eq]
  refine ⟨⟨s.queue.take n, ?_, ?_⟩, rfl, rfl, rfl⟩
  · simp
  · simp

theorem readStatus_moves (s : Simulator) : Moves s [] s.readStatus.2 := by
  unfold readStatus
  split
  · rw [retireOne_eq_drain]
    exact s.drain_moves 1
  · exact .refl s

/-- A question that neither flushes the queue nor commits a block. -/
def Quiet : Bus.Query → Prop
  | .write .command w => w &&& Command.reset = 0 ∧ w &&& Command.commit = 0
  | _ => True

theorem quiet_harmless : Harmless Quiet where
  read _ := trivial
  note _ _ := trivial
  write r _ h := by cases r <;> first | contradiction | trivial
  zero := ⟨rfl, rfl⟩

theorem command_moves {w : UInt32} (hreset : w &&& Command.reset = 0)
    (hcommit : w &&& Command.commit = 0) : Moves s [] (s.command w) := by
  have hr : asks w Command.reset = false := asks_of_eq_zero hreset
  have hc : s.commits w = false := by simp [commits, asks_of_eq_zero hcommit]
  rw [command_law]
  exact .of_eq (by simp [accepts, hc, kept, hr]) rfl (by simp [accepts, hc]) (by simp [hc, hr]) rfl

theorem reply_moves {q : Bus.Query} (hq : Quiet q) (h : s.fault = none) :
    Moves s [] (file.reply q s).2 := by
  cases q with
  | note level text => exact .refl s
  | read r =>
    change Moves s [] (read r s).2
    by_cases hr : r = .status
    · rw [hr, read_status h]
      exact s.readStatus_moves
    · rw [read_of_ne h hr]
      exact .refl s
  | write r w =>
    change Moves s [] (write r w s)
    by_cases hr : r = .command
    · subst hr
      rw [write_command h]
      exact command_moves hq.1 hq.2
    · rcases write_of_ne (w := w) h hr with hw | hw <;> rw [hw]
      · exact .refl s
      · exact .of_eq rfl rfl rfl rfl rfl

theorem command_commitWord (hfull : s.isFull = false) (hstop : s.emergency = false)
    (cfg : Controller.Settings) :
    s.command (commitWord cfg) =
      { s with
        words := s.words.put .command (commitWord cfg)
        queue := s.queue ++ [s.stagedBlock]
        running := s.running || cfg.startOnCommit
        committed := s.committed + 1 } := by
  have hreset : asks (commitWord cfg) Command.reset = false := by
    unfold commitWord; split <;> decide
  have hclear : asks (commitWord cfg) Command.clearSticky = false := by
    unfold commitWord; split <;> decide
  have hstops : asks (commitWord cfg) Command.stop = false := by
    unfold commitWord; split <;> decide
  have hcommit : asks (commitWord cfg) Command.commit = true := by
    unfold commitWord; split <;> decide
  have henable : asks (commitWord cfg) Command.enable = cfg.startOnCommit := by
    unfold commitWord; split <;> simp_all <;> decide
  have hroom : s.queue.length < s.depth := by simpa [isFull] using hfull
  simp [command_law, accepts, commits, hasRoom, kept, stopsAt, hreset, hclear, hstops, hcommit,
    henable, hstop, hroom]

theorem commit_moves (hfull : s.isFull = false) (hstop : s.emergency = false)
    (cfg : Controller.Settings) :
    Moves s [s.stagedBlock] (s.command (commitWord cfg)) := by
  rw [command_commitWord hfull hstop]
  exact ⟨⟨[], rfl, rfl⟩, rfl, rfl, rfl⟩

end PulseMill.Simulator
