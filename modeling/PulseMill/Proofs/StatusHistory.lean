import PulseMill.Proofs.Conservation
set_option autoImplicit false

/-!
What the flags of a simulator tell of its past. Each of them is a latch: some stimuli set it
and some clear it, so that it tells whether the one kind has come since the other.
-/

namespace PulseMill

open Simulator (asks)

namespace Stimulus

def FaultFree : Stimulus → Prop
  | setFault fault => fault = none
  | _ => True

/-- A command that asks for all of these and for none of those. -/
def Asks (these those : List UInt32) (e : Stimulus) : Prop :=
  ∃ w, e = .write .command w ∧ (∀ bit ∈ these, asks w bit) ∧ ∀ bit ∈ those, ¬ asks w bit

def Resets (e : Stimulus) : Prop := e.Asks [Command.reset] []

def Stops (e : Stimulus) : Prop := e = .trip ∨ e.Asks [Command.stop] []

/-- Ends a stop. A command that asks for a stop as well latches it again. -/
def Releases (e : Stimulus) : Prop := e.Asks [Command.reset] [Command.stop]

def Halts (e : Stimulus) : Prop := e.Resets ∨ e.Stops

def ClearsDry (e : Stimulus) : Prop := e.Resets ∨ e.Asks [Command.clearSticky] []

theorem asks_command {these those : List UInt32} {w : UInt32} :
    (Stimulus.write .command w).Asks these those ↔
      (∀ bit ∈ these, asks w bit) ∧ ∀ bit ∈ those, ¬ asks w bit := by simp [Asks]

theorem not_asks {these those : List UInt32} {e : Stimulus} (h : ∀ w, e ≠ .write .command w) :
    ¬ e.Asks these those := fun ⟨w, he, _⟩ => h w he

end Stimulus

namespace Simulator

variable {s : Simulator} {e : Stimulus} {es : List Stimulus} {P : Simulator → Stimulus → Prop}
  {Q : Stimulus → Prop}

/-- A block is committed to a full queue while no stop is latched. -/
def Overruns (s : Simulator) (e : Stimulus) : Prop :=
  e.Asks [Command.commit] [Command.reset, Command.stop] ∧ s.queue.length = s.depth ∧
    s.emergency = false

def RunsDry (s : Simulator) (e : Stimulus) : Prop :=
  (e = .read .status ∧ s.autoDrain = true ∨ ∃ n, e = .drain n) ∧ s.running = true ∧
    s.queue ≠ [] ∧ (s.react e).queue = []

def Starts (s : Simulator) (e : Stimulus) : Prop :=
  e.Asks [Command.enable] [Command.stop] ∧ (s.emergency = true → e.Resets)

/-- In the run there is a stimulus of the one kind, seen with the state that it meets, and
none of the other kind after it. -/
def Since (P : Simulator → Stimulus → Prop) (Q : Stimulus → Prop) (s : Simulator)
    (es : List Stimulus) : Prop :=
  ∃ before e after, es = before ++ e :: after ∧ P (s.run before) e ∧ ∀ e' ∈ after, ¬ Q e'

theorem not_since_nil : ¬ Since P Q s [] := by
  intro h
  obtain ⟨before, e, after, hes, -⟩ := h
  simp at hes

theorem since_cons :
    Since P Q s (e :: es) ↔ (P s e ∧ ∀ e' ∈ es, ¬ Q e') ∨ Since P Q (s.react e) es := by
  constructor
  · intro h
    obtain ⟨before, e', after, hes, hset, hlater⟩ := h
    cases before with
    | nil =>
      obtain ⟨rfl, rfl⟩ := List.cons_eq_cons.1 hes
      exact .inl ⟨hset, hlater⟩
    | cons first before =>
      obtain ⟨rfl, rfl⟩ := List.cons_eq_cons.1 hes
      exact .inr ⟨before, e', after, rfl, hset, hlater⟩
  · intro h
    obtain ⟨hset, hlater⟩ | ⟨before, e', after, rfl, hset, hlater⟩ := h
    · exact ⟨[], e, es, rfl, hset, hlater⟩
    · exact ⟨e :: before, e', after, rfl, hset, hlater⟩

/-- After a stimulus the flag is set if the stimulus sets it, or does not clear it. -/
def Latch (flag : Simulator → Bool) (P : Simulator → Stimulus → Prop) (Q : Stimulus → Prop) :
    Prop :=
  ∀ s e, s.Sound → s.fault = none → e.FaultFree →
    (flag (s.react e) = true ↔ P s e ∨ flag s = true ∧ ¬ Q e)

theorem fault_react (h : s.fault = none) (he : e.FaultFree) : (s.react e).fault = none := by
  rw [react_fault]
  cases e <;> first | exact h | exact he

theorem fault_run (h : s.fault = none) (hes : ∀ e ∈ es, e.FaultFree) :
    (s.run es).fault = none := by
  induction es generalizing s with
  | nil => exact h
  | cons e es ih =>
    obtain ⟨he, hmore⟩ := List.forall_mem_cons.1 hes
    exact ih (fault_react h he) hmore

/-- A flag that is set was set in the run, or before it, and has not been cleared since. -/
theorem Latch.run_iff {flag : Simulator → Bool} (hlatch : Latch flag P Q) (hs : s.Sound)
    (hfault : s.fault = none) (hes : ∀ e ∈ es, e.FaultFree) :
    flag (s.run es) = true ↔ Since P Q s es ∨ flag s = true ∧ ∀ e ∈ es, ¬ Q e := by
  induction es generalizing s with
  | nil => simp [not_since_nil]
  | cons e es ih =>
    obtain ⟨he, hmore⟩ := List.forall_mem_cons.1 hes
    rw [run_cons, ih (hs.react e) (fault_react hfault he) hmore, hlatch s e hs hfault he,
      since_cons, List.forall_mem_cons]
    rw [or_and_right, and_assoc, or_left_comm, or_assoc]

theorem latch_of_parts {flag : Simulator → Bool}
    (hcommand : ∀ s : Simulator, s.Sound → ∀ w, flag (s.command w) = true ↔
      P s (.write .command w) ∨ flag s = true ∧ ¬ Q (.write .command w))
    (htrip : ∀ s : Simulator, flag s.trip = true ↔ P s .trip ∨ flag s = true ∧ ¬ Q .trip)
    (hrest : ∀ (s : Simulator) e, s.fault = none → s.commandOf e = none →
      (∀ these those, ¬ e.Asks these those) → e ≠ .trip →
      (flag (s.react e) = true ↔ P s e ∨ flag s = true ∧ ¬ Q e)) : Latch flag P Q := by
  intro s e hs hfault _
  cases hc : s.commandOf e with
  | some w =>
    obtain rfl := (commandOf_eq_some_iff hfault).1 hc
    rw [react_command hc]
    exact hcommand s hs w
  | none =>
    have hnone (w : UInt32) : e ≠ .write .command w := by
      intro he
      rw [(commandOf_eq_some_iff hfault).2 he] at hc
      cases hc
    by_cases he : e = .trip
    · subst he
      exact htrip s
    · exact hrest s e hfault hc (fun _ _ => Stimulus.not_asks hnone) he

theorem stop_latch : Latch emergency (fun _ => Stimulus.Stops) Stimulus.Releases := by
  refine latch_of_parts (fun s _ w => ?_) (fun s => ?_) fun s e _ hc hasks htrip => ?_
  · simp only [command_law, stopsAt, Stimulus.Stops, Stimulus.Releases, Stimulus.asks_command]
    grind
  · simp [trip, Stimulus.Stops]
  · obtain ⟨words, autoDrain, hreact⟩ := react_of_no_command hc htrip
    simp [hreact, htrip, hasks, Stimulus.Stops, Stimulus.Releases]

theorem overflow_latch : Latch overflow Overruns Stimulus.Resets := by
  refine latch_of_parts (fun s hs w => ?_) (fun s => ?_) fun s e _ hc hasks htrip => ?_
  · have hroom := hs.room
    have hpos := hs.depth_pos
    simp only [command_law, commits, hasRoom, kept, stopsAt, Overruns, Stimulus.Resets,
      Stimulus.asks_command]
    grind
  · simp [trip, Overruns, Stimulus.Resets, Stimulus.Asks]
  · obtain ⟨words, autoDrain, hreact⟩ := react_of_no_command hc htrip
    simp [hreact, hasks, Overruns, Stimulus.Resets]

theorem forced_latch :
    Latch forcedError (fun _ e => e = .forceError true) (· = .forceError false) := by
  refine latch_of_parts (fun s _ w => ?_) (fun s => ?_) fun s e _ hc hasks htrip => ?_
  · simp [command_law]
  · simp [trip]
  · obtain ⟨words, autoDrain, hreact⟩ := react_of_no_command hc htrip
    rw [hreact]
    cases e <;> simp [forcedBy]

theorem motion_latch : Latch running Starts Stimulus.Halts := by
  refine latch_of_parts (fun s _ w => ?_) (fun s => ?_) fun s e _ hc hasks htrip => ?_
  · simp only [command_law, stopsAt, Starts, Stimulus.Halts, Stimulus.Resets, Stimulus.Stops,
      Stimulus.asks_command]
    grind
  · simp [trip, Starts, Stimulus.Halts, Stimulus.Stops, Stimulus.Asks]
  · obtain ⟨words, autoDrain, hreact⟩ := react_of_no_command hc htrip
    simp [hreact, htrip, hasks, Starts, Stimulus.Halts, Stimulus.Resets, Stimulus.Stops]

theorem exists_drain (hfault : s.fault = none) (h : 0 < s.drainOf e) :
    e = .read .status ∧ s.autoDrain = true ∨ ∃ n, e = .drain n := by
  cases e with
  | read r =>
    rw [drainOf, resolve_of_fault_eq_none hfault] at h
    split at h
    case isTrue hread => exact .inl ⟨by rw [hread.1], hread.2.2⟩
    case isFalse => cases h
  | drain n => exact .inr ⟨n, rfl⟩
  | _ => cases h

theorem runsDry_iff (hfault : s.fault = none) (hc : s.commandOf e = none) (htrip : e ≠ .trip) :
    s.RunsDry e ↔ s.running = true ∧ s.queue ≠ [] ∧ s.queue.length ≤ s.drainOf e := by
  obtain ⟨words, autoDrain, hreact⟩ := react_of_no_command hc htrip
  rw [RunsDry, hreact]
  constructor
  · intro h
    obtain ⟨-, hrunning, hqueue, hgone⟩ := h
    exact ⟨hrunning, hqueue, List.drop_eq_nil_iff.1 hgone⟩
  · intro h
    obtain ⟨hrunning, hqueue, hall⟩ := h
    have hsome : 0 < s.drainOf e := Nat.lt_of_lt_of_le (List.length_pos_iff.2 hqueue) hall
    exact ⟨exists_drain hfault hsome, hrunning, hqueue, List.drop_eq_nil_iff.2 hall⟩

theorem dry_latch : Latch sticky RunsDry Stimulus.ClearsDry := by
  refine latch_of_parts (fun s _ w => ?_) (fun s => ?_) fun s e hfault hc hasks htrip => ?_
  · simp only [command_law, RunsDry, Stimulus.ClearsDry, Stimulus.Resets, Stimulus.asks_command]
    grind
  · simp [trip, RunsDry, Stimulus.ClearsDry, Stimulus.Resets, Stimulus.Asks]
  · obtain ⟨words, autoDrain, hreact⟩ := react_of_no_command hc htrip
    rw [runsDry_iff hfault hc htrip, hreact]
    simp [hasks, Stimulus.ClearsDry, Stimulus.Resets, and_assoc, or_comm]

/-- In every run from the start without a fault of the wiring, the status tells the history: a
stop has come with no release after it, an error is forced or a full queue has been overrun
since the last reset, and the queue has run dry since that was last cleared. There is motion if
it was started and neither reset nor stopped after that. A command queues the staged block if it
asks for that, no stop is latched once its reset and its stop are done, and there is room once
its reset is done, and otherwise it queues none. -/
theorem run_status_history (depth : Nat) (es : List Stimulus) (hes : ∀ e ∈ es, e.FaultFree) :
    let start := ({} : Simulator).withDepth depth
    let s := start.run es
    let st : Status := ⟨s.statusBits⟩
    (st.isStopped = true ↔ start.Since (fun _ => Stimulus.Stops) Stimulus.Releases es) ∧
    (st.isError = true ↔
      start.Since (fun _ e => e = .forceError true) (· = .forceError false) es ∨
        start.Since Overruns Stimulus.Resets es) ∧
    (st.hasRunDry = true ↔ start.Since RunsDry Stimulus.ClearsDry es) ∧
    (s.running = true ↔ start.Since Starts Stimulus.Halts es) ∧
    (∀ w, let t := write .command w s
      let left := if asks w Command.reset then [] else s.queue
      let accepted := asks w Command.commit = true ∧
        (s.emergency = true → asks w Command.reset = true) ∧ asks w Command.stop = false ∧
        left.length < s.depth
      (accepted → t.queue = left ++ [s.stagedBlock] ∧ t.committed = s.committed + 1) ∧
        (¬ accepted → t.queue = left ∧ t.committed = s.committed)) ∧
    (read .status s).1 = (start.run (es ++ [.read .status])).statusBits := by
  intro start s st
  have hstart : start.Sound := sound_withDepth depth
  have hfault : s.fault = none := fault_run rfl hes
  refine ⟨?_, ?_, ?_, ?_, fun w => ?_, ?_⟩
  · rw [isStopped_statusBits, stop_latch.run_iff hstart rfl hes]
    simp [start, withDepth]
  · rw [isError_statusBits, Bool.or_eq_true, forced_latch.run_iff hstart rfl hes,
      overflow_latch.run_iff hstart rfl hes]
    simp [start, withDepth]
  · rw [hasRunDry_statusBits, dry_latch.run_iff hstart rfl hes]
    simp [start, withDepth]
  · rw [motion_latch.run_iff hstart rfl hes]
    simp [start, withDepth]
  · intro t left accepted
    have haccepts : s.accepts w = true ↔ accepted := by
      simp only [accepts, commits, stopsAt, hasRoom, kept, accepted, left]
      grind
    have ht : t = s.command w := write_command hfault w
    rw [ht, command_law, ← haccepts]
    constructor
    · intro h
      simp [h, kept, left]
    · intro h
      simp [h, kept, left]
  · rw [run_concat, react, read_status hfault]
    rfl

/-- A queue of one block runs dry in motion and is overrun by the third commit, and then the
stop comes. -/
theorem run_status_history_of_overrun :
    let start := ({} : Simulator).withDepth 1
    let es : List Stimulus :=
      [.write .command (Command.commit ||| Command.enable), .read .status,
        .write .command Command.commit, .write .command Command.commit, .trip]
    (∀ e ∈ es, e.FaultFree) ∧
      start.Since (fun _ => Stimulus.Stops) Stimulus.Releases es ∧
      start.Since Overruns Stimulus.Resets es ∧ start.Since RunsDry Stimulus.ClearsDry es ∧
      ¬ start.Since Starts Stimulus.Halts es := by
  intro start es
  have hes : ∀ e ∈ es, e.FaultFree := by simp [es, Stimulus.FaultFree]
  obtain ⟨hstop, herror, hdry, hmotion, -⟩ := run_status_history 1 es hes
  have hunforced :
      ¬ start.Since (fun _ e => e = .forceError true) (· = .forceError false) es := by
    intro h
    obtain ⟨before, e, after, hsplit, rfl, -⟩ := h
    have hmem : Stimulus.forceError true ∈ es := by rw [hsplit]; simp
    simp [es] at hmem
  refine ⟨hes, hstop.1 (by decide +kernel), ?_, hdry.1 (by decide +kernel), ?_⟩
  · exact (herror.1 (by decide +kernel)).resolve_left hunforced
  · exact fun h => absurd (hmotion.2 h) (by decide +kernel)

end Simulator

end PulseMill
