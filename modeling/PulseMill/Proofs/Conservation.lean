import PulseMill.Proofs.SimulatorRun
set_option autoImplicit false

namespace PulseMill.Simulator

variable {s : Simulator} {e : Stimulus} {w : UInt32}

def flushedBy (s : Simulator) (e : Stimulus) : Nat :=
  match s.commandOf e with
  | some w => if asks w Command.reset then s.queue.length else 0
  | none => 0

/-- How many blocks a run throws away. -/
def flushed (s : Simulator) : List Stimulus → Nat
  | [] => 0
  | e :: es => s.flushedBy e + (s.react e).flushed es

def acceptedBy (s : Simulator) (e : Stimulus) (blocks : List Block) : List Block :=
  match s.commandOf e with
  | some w =>
    (if asks w Command.reset then [] else blocks) ++ if s.accepts w then [s.stagedBlock] else []
  | none => blocks

/-- The blocks accepted in a run since its last reset, the oldest first, with those that came
before the run. -/
def acceptedAfter (s : Simulator) (blocks : List Block) : List Stimulus → List Block
  | [] => blocks
  | e :: es => (s.react e).acceptedAfter (s.acceptedBy e blocks) es

structure Sound (s : Simulator) : Prop where
  depth_pos : 1 ≤ s.depth
  depth_le : s.depth ≤ maxDepth
  room : s.queue.length ≤ s.depth
  apart : s.emergency = true → s.running = false

theorem sound_withDepth (depth : Nat) : Sound (({} : Simulator).withDepth depth) where
  depth_pos := Nat.le_max_left ..
  depth_le := by simp only [withDepth, maxDepth]; omega
  room := Nat.zero_le _
  apart := nofun

theorem length_kept_le (s : Simulator) (w : UInt32) : (s.kept w).length ≤ s.queue.length := by
  unfold kept
  split <;> simp

theorem Sound.command (h : s.Sound) (w : UInt32) : (s.command w).Sound := by
  have hkept := s.length_kept_le w
  have hroom := h.room
  have hapart := command_apart h.apart w
  rw [command_law] at hapart ⊢
  refine ⟨h.depth_pos, h.depth_le, ?_, hapart⟩
  cases haccepts : s.accepts w with
  | false => simp; omega
  | true =>
    have hfits : (s.kept w).length < s.depth := by simp_all [accepts, hasRoom]
    simp; omega

theorem Sound.react (h : s.Sound) (e : Stimulus) : (s.react e).Sound := by
  cases hcommand : s.commandOf e with
  | some w =>
    rw [react_command hcommand]
    exact h.command w
  | none =>
    by_cases htrip : e = .trip
    · subst htrip
      exact ⟨h.depth_pos, h.depth_le, h.room, fun _ => rfl⟩
    · obtain ⟨words, autoDrain, hreact⟩ := react_of_no_command hcommand htrip
      rw [hreact]
      have hroom := h.room
      exact ⟨h.depth_pos, h.depth_le, by simp; omega, h.apart⟩

theorem Sound.run (h : s.Sound) (es : List Stimulus) : (s.run es).Sound := by
  induction es generalizing s with
  | nil => exact h
  | cons e es ih => exact ih (h.react e)

theorem command_counts (s : Simulator) (w : UInt32) :
    (s.command w).committed + s.retired + s.queue.length =
      s.committed + (s.command w).retired + (s.command w).queue.length +
        if asks w Command.reset then s.queue.length else 0 := by
  rw [command_law]
  cases s.accepts w <;> cases hreset : asks w Command.reset <;> simp [kept, hreset] <;> omega

theorem react_counts (s : Simulator) (e : Stimulus) :
    (s.react e).committed + s.retired + s.queue.length =
      s.committed + (s.react e).retired + (s.react e).queue.length + s.flushedBy e := by
  cases hcommand : s.commandOf e with
  | some w => simpa only [react_command hcommand, flushedBy, hcommand] using s.command_counts w
  | none =>
    simp only [flushedBy, hcommand]
    by_cases htrip : e = .trip
    · subst htrip
      rfl
    · obtain ⟨words, autoDrain, hreact⟩ := react_of_no_command hcommand htrip
      rw [hreact]
      simp only [List.length_drop]
      omega

theorem run_counts (s : Simulator) (es : List Stimulus) :
    (s.run es).committed + s.retired + s.queue.length =
      s.committed + (s.run es).retired + (s.run es).queue.length + s.flushed es := by
  induction es generalizing s with
  | nil => simp only [run_nil, flushed]; omega
  | cons e es ih =>
    have hfirst := s.react_counts e
    have hrest := ih (s.react e)
    simp only [run_cons, flushed]
    omega

theorem react_suffix {blocks : List Block} (h : s.queue <:+ blocks) (e : Stimulus) :
    (s.react e).queue <:+ s.acceptedBy e blocks := by
  cases hcommand : s.commandOf e with
  | some w =>
    have hkept : s.kept w <:+ if asks w Command.reset then [] else blocks := by
      unfold kept
      split
      · exact List.suffix_rfl
      · exact h
    obtain ⟨gone, hgone⟩ := hkept
    rw [react_command hcommand, command_law, acceptedBy, hcommand]
    exact ⟨gone, by rw [← List.append_assoc, hgone]⟩
  | none =>
    rw [acceptedBy, hcommand]
    by_cases htrip : e = .trip
    · subst htrip
      exact h
    · obtain ⟨words, autoDrain, hreact⟩ := react_of_no_command hcommand htrip
      rw [hreact]
      exact (List.drop_suffix ..).trans h

theorem run_suffix {blocks : List Block} (h : s.queue <:+ blocks) (es : List Stimulus) :
    (s.run es).queue <:+ s.acceptedAfter blocks es := by
  induction es generalizing s blocks with
  | nil => exact h
  | cons e es ih => exact ih (react_suffix h e)

/-- The status tells the queue and the motion of the simulator as they are. -/
structure Shows (s : Simulator) (st : Status) : Prop where
  full : st.isFull = true ↔ s.queue.length = s.depth
  empty : st.isEmpty = true ↔ s.queue = []
  not_both : ¬ (st.isFull = true ∧ st.isEmpty = true)
  one_of : st.isBusy = !st.isIdle
  known : st.bits < 2 * Status.sticky

theorem Sound.shows (h : s.Sound) : s.Shows ⟨s.statusBits⟩ where
  full := by
    have := h.room
    simp [isFull]
    omega
  empty := by simp
  not_both := by
    have := h.depth_pos
    simp [isFull]
    intro hfull hempty
    simp [hempty] at hfull
    omega
  one_of := by simp
  known := s.statusBits_lt

/-- In every run from the start the depth keeps its bounds, no more blocks are queued than that,
and there is no motion during a stop. The blocks committed are those that have retired, those
that are queued and those thrown away by resets. The queue holds the last ones accepted since
the last reset, in their order, and so a status that is worked out tells the truth. The law of the
counts is also that of machine words, until they have come to their greatest value. -/
theorem run_conserves (depth : Nat) (es : List Stimulus) :
    let start := ({} : Simulator).withDepth depth
    let s := start.run es
    (1 ≤ s.depth ∧ s.depth ≤ 16) ∧ s.queue.length ≤ s.depth ∧
    ¬ (s.emergency = true ∧ s.running = true) ∧
    s.committed = s.retired + s.queue.length + start.flushed es ∧
    (s.committed ≤ maxIndex →
      counted s.committed = counted s.retired + s.queue.length + start.flushed es) ∧
    s.queue <:+ start.acceptedAfter [] es ∧
    s.Shows ⟨s.statusBits⟩ ∧ s.readStatus.2.Shows ⟨s.readStatus.1⟩ := by
  intro start s
  have hsound : s.Sound := (sound_withDepth depth).run es
  have hread : s.readStatus.2.Sound := by
    rw [readStatus_state]
    exact hsound.react (.drain _)
  have hcounts : s.committed + 0 + 0 = 0 + s.retired + s.queue.length + start.flushed es :=
    start.run_counts es
  refine ⟨⟨hsound.depth_pos, hsound.depth_le⟩, hsound.room, fun ⟨hstop, hrunning⟩ => ?_, by omega,
    fun hmax => ?_, run_suffix List.suffix_rfl es, hsound.shows, hread.shows⟩
  · rw [hsound.apart hstop] at hrunning
    cases hrunning
  · rw [counted_of_le hmax, counted_of_le (by omega)]
    omega

end PulseMill.Simulator
