import PulseMill.Proofs.SimulatorAccess
set_option autoImplicit false

namespace PulseMill

inductive Stimulus where
  | read (r : Register)
  | write (r : Register) (w : UInt32)
  | drain (n : Nat)
  | setAutoDrain (on : Bool)
  | setFault (fault : Option DecoderFault)
  | forceError (on : Bool)
  | trip
  | setWord (r : Register) (w : UInt32)
  | setInput (bank : Bank) (w : UInt32)

namespace Simulator

def react (s : Simulator) : Stimulus → Simulator
  | .read r => (read r s).2
  | .write r w => write r w s
  | .drain n => s.drain n
  | .setAutoDrain on => s.setAutoDrain on
  | .setFault fault => s.setFault fault
  | .forceError on => s.forceError on
  | .trip => s.trip
  | .setWord r w => s.setWord r w
  | .setInput bank w => s.setInput bank w

def run (s : Simulator) (es : List Stimulus) : Simulator := es.foldl react s

variable {s : Simulator} {e : Stimulus} {r : Register} {w : UInt32}

@[simp] theorem run_nil (s : Simulator) : s.run [] = s := rfl

@[simp] theorem run_cons (s : Simulator) (e : Stimulus) (es : List Stimulus) :
    s.run (e :: es) = (s.react e).run es := rfl

@[simp] theorem run_concat (s : Simulator) (es : List Stimulus) (e : Stimulus) :
    s.run (es ++ [e]) = (s.run es).react e := by simp [run]

/-- The command that the stimulus brings. A fault may lead the write of another register
to the command register, or a command elsewhere. -/
def commandOf (s : Simulator) : Stimulus → Option UInt32
  | .write r w => if s.resolve r = .command then some w else none
  | _ => none

def drainOf (s : Simulator) : Stimulus → Nat
  | .drain n => n
  | .read r => if s.resolve r = .status ∧ s.running ∧ s.autoDrain then 1 else 0
  | _ => 0

def forcedBy (s : Simulator) : Stimulus → Bool
  | .forceError on => on
  | _ => s.forcedError

def faultBy (s : Simulator) : Stimulus → Option DecoderFault
  | .setFault fault => fault
  | _ => s.fault

theorem react_command (h : s.commandOf e = some w) : s.react e = s.command w := by
  cases e with
  | write r w' =>
    simp only [commandOf] at h
    split at h
    case isTrue hr =>
      obtain rfl := Option.some.inj h
      simp [react, write, hr]
    case isFalse hr => cases h
  | _ => cases h

theorem readStatus_state (s : Simulator) :
    s.readStatus.2 = s.drain (if s.running ∧ s.autoDrain then 1 else 0) := by
  by_cases h : s.running ∧ s.autoDrain
  · simp [readStatus, h, retireOne_eq_drain]
  · have hon : (s.running && s.autoDrain) = false := by simpa using h
    simp [readStatus, hon, h, drain]

theorem read_state (s : Simulator) (r : Register) :
    (read r s).2 = s.drain (s.drainOf (.read r)) := by
  by_cases hr : s.resolve r = .status
  · simp [read, drainOf, hr, readStatus_state]
  · have hsame : (read r s).2 = s := by
      unfold read
      cases h : s.resolve r <;> first | contradiction | rfl
    simp [hsame, drainOf, hr, drain]

theorem write_state (h : s.commandOf (.write r w) = none) :
    ∃ words, write r w s = { s with words } := by
  have hr : s.resolve r ≠ .command := by
    intro hr
    simp [commandOf, hr] at h
  unfold write
  cases h : s.resolve r <;> first | contradiction | exact ⟨_, rfl⟩

theorem react_of_no_command (h : s.commandOf e = none) (htrip : e ≠ .trip) :
    ∃ words autoDrain, s.react e =
      { s with
        words, autoDrain
        fault := s.faultBy e
        forcedError := s.forcedBy e
        queue := s.queue.drop (s.drainOf e)
        retired := s.retired + min (s.drainOf e) s.queue.length
        sticky := s.sticky ||
          (s.running && !s.queue.isEmpty && s.queue.length ≤ s.drainOf e) } := by
  have hdrain : ∃ words autoDrain, s.react e =
      { s.drain (s.drainOf e) with
        words, autoDrain, fault := s.faultBy e, forcedError := s.forcedBy e } := by
    cases e with
    | trip => contradiction
    | read r =>
      refine ⟨s.words, s.autoDrain, ?_⟩
      rw [react, read_state, drain_eq]
      rfl
    | write r w =>
      obtain ⟨words, hw⟩ := write_state h
      exact ⟨words, s.autoDrain, hw⟩
    | drain n =>
      refine ⟨s.words, s.autoDrain, ?_⟩
      rw [react, drainOf, drain_eq]
      rfl
    | _ => exact ⟨_, _, rfl⟩
  simpa only [drain_eq] using hdrain

theorem react_fault (s : Simulator) (e : Stimulus) : (s.react e).fault = s.faultBy e := by
  cases hcommand : s.commandOf e with
  | some w =>
    have he : s.faultBy e = s.fault := by cases e <;> first | rfl | cases hcommand
    rw [react_command hcommand, command_law, he]
  | none =>
    by_cases htrip : e = .trip
    · subst htrip
      rfl
    · obtain ⟨words, autoDrain, hreact⟩ := react_of_no_command hcommand htrip
      rw [hreact]

theorem resolve_of_fault_eq_none (h : s.fault = none) (r : Register) : s.resolve r = r := by
  simp [resolve, h]

theorem commandOf_eq_some_iff (h : s.fault = none) :
    s.commandOf e = some w ↔ e = .write .command w := by
  cases e with
  | write r w' => simp [commandOf, resolve_of_fault_eq_none h]
  | _ => simp [commandOf]

end Simulator

end PulseMill
