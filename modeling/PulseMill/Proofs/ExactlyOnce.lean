import PulseMill.Proofs.Operation
import PulseMill.Proofs.SimulatedDelivery
set_option autoImplicit false

namespace PulseMill

open Controller (Settings)
open Simulator (Moves Quiet counted counted_of_le)

namespace BlockArray

variable {α : Type}

theorem rest_seek (a : BlockArray α) (k : Nat) :
    (a.seek (a.cursor + k)).rest = a.rest.drop k := by
  simp [rest, seek, toList]

end BlockArray

/-- Neither a flush, nor a commit past the array, nor a fault, nor another array. -/
def Action.Streams : Action → Prop
  | .operate .reset | .operate (.load ..) | .operate (.write ..) | .setFault _ | .mount _ => False
  | _ => True

/-- The blocks from the cursor of the one bench to that of the other were committed. -/
structure Bench.Streamed (b c : Bench) (k : Nat) : Prop where
  bound : k ≤ b.blocks.remaining
  blocks : c.blocks = b.blocks.seek (b.blocks.cursor + k)
  moves : Moves b.sim (b.blocks.rest.take k) c.sim

namespace Bench.Streamed

variable {b c d : Bench}

theorem still {sim : Simulator} (h : Moves b.sim [] sim) : Streamed b { b with sim } 0 :=
  ⟨Nat.zero_le _, rfl, h⟩

theorem trans {j k : Nat} (h : Streamed b c j) (h' : Streamed c d k) :
    Streamed b d (j + k) := by
  have hrest : c.blocks.rest = b.blocks.rest.drop j := by rw [h.blocks, b.blocks.rest_seek]
  refine ⟨?_, ?_, ?_⟩
  · have hj := h.bound
    have hk := h'.bound
    rw [← BlockArray.length_rest] at hj hk ⊢
    rw [hrest, List.length_drop] at hk
    omega
  · rw [h'.blocks, h.blocks]
    simp [BlockArray.seek, Nat.add_assoc]
  · have hm := h.moves.trans h'.moves
    rwa [hrest, ← List.take_add] at hm

end Bench.Streamed

theorem Operation.drive_quiet {op : Operation} (h : (Action.operate op).Streams)
    (hop : op ≠ execute) (cfg : Settings) (v : Verbosity) (a : BlockArray Block) :
    (op.drive cfg v a).Only Quiet := by
  refine drive_only Simulator.quiet_harmless ⟨rfl, rfl⟩ ⟨rfl, rfl⟩ ⟨rfl, rfl⟩ ?_ ?_ ?_ v a
  · intro start hcommit
    cases op <;> contradiction
  · intro hgiven
    obtain rfl := hgiven
    exact h
  · intro r w hgiven
    obtain rfl := hgiven
    exact h.elim

theorem Action.effect_streamed {act : Action} {b : Bench} (hact : act.Streams)
    (h : b.sim.fault = none) (cfg : Settings) (v : Verbosity) :
    ∃ k, Bench.Streamed b (act.effect cfg v b) k := by
  cases act with
  | operate op =>
    rw [effect_operate]
    by_cases hop : op = .execute
    · subst hop
      obtain ⟨k, hk, ha, hm⟩ := Simulator.execute_moves h cfg b.blocks
      rw [Operation.drive, RegisterFile.outcome_bind]
      exact ⟨k, hk, ha, hm⟩
    · refine ⟨0, Nat.zero_le _, ?_, Simulator.quiet_moves (op.drive_quiet hact hop cfg v _) h⟩
      exact op.outcome_drive_fst _ hop cfg v _ _
  | drain n => exact ⟨0, .still (b.sim.drain_moves n)⟩
  | setAutoDrain on => exact ⟨0, .still (.of_eq rfl rfl rfl rfl rfl)⟩
  | forceError on => exact ⟨0, .still (.of_eq rfl rfl rfl rfl rfl)⟩
  | trip => exact ⟨0, .still (.of_eq rfl rfl rfl rfl rfl)⟩
  | setFault fault => exact hact.elim
  | setWord r w => exact ⟨0, .still (.of_eq rfl rfl rfl rfl rfl)⟩
  | setInput bank w => exact ⟨0, .still (.of_eq rfl rfl rfl rfl rfl)⟩
  | mount a => exact hact.elim

theorem Bench.run_streamed {acts : List Action} {b : Bench} (hacts : ∀ act ∈ acts, act.Streams)
    (h : b.sim.fault = none) (cfg : Settings) (v : Verbosity) :
    ∃ k, Streamed b (run cfg v acts b) k := by
  induction acts generalizing b with
  | nil => exact ⟨0, .still (.refl b.sim)⟩
  | cons act acts ih =>
    obtain ⟨hact, hmore⟩ := List.forall_mem_cons.1 hacts
    obtain ⟨j, hj⟩ := act.effect_streamed hact h cfg v
    obtain ⟨k, hk⟩ := ih hmore (hj.moves.fault.trans h)
    exact ⟨j + k, hj.trans hk⟩

/-- In any run of executions of one array, mixed with anything but a flush, a commit past the
array or a fault, the blocks between the first and the last place of the cursor are committed
once each, in their order and as they are, and none of them to a full queue. Those that have
retired are missing from the front of the queue, and no others. Counters of machine words tell so
as well, until they have come to their greatest value. -/
theorem run_exactly_once (cfg : Settings) (v : Verbosity) (s : Simulator)
    (a : BlockArray Block) (acts : List Action) (hfault : s.fault = none)
    (ha : a.cursor ≤ a.length) (hacts : ∀ act ∈ acts, act.Streams) :
    let b := Bench.run cfg v acts ⟨s, a⟩
    let sent := (a.toList.drop a.cursor).take (b.blocks.cursor - a.cursor)
    b.blocks = { a with cursor := b.blocks.cursor } ∧
    a.cursor ≤ b.blocks.cursor ∧ b.blocks.cursor ≤ a.length ∧
    b.sim.committed = s.committed + (b.blocks.cursor - a.cursor) ∧
    s.retired ≤ b.sim.retired ∧
    b.sim.queue = (s.queue ++ sent).drop (b.sim.retired - s.retired) ∧
    b.sim.queue.length + (b.sim.retired - s.retired) =
      s.queue.length + (b.blocks.cursor - a.cursor) ∧
    b.sim.overflow = s.overflow ∧
    (b.sim.committed ≤ maxIndex →
      counted b.sim.committed = counted s.committed + (b.blocks.cursor - a.cursor)) ∧
    (b.sim.retired ≤ maxIndex →
      b.sim.queue = (s.queue ++ sent).drop (counted b.sim.retired - counted s.retired)) := by
  intro b sent
  obtain ⟨k, hbound, hblocks, hmoves⟩ := Bench.run_streamed (b := ⟨s, a⟩) hacts hfault cfg v
  have hblocks : b.blocks = a.seek (a.cursor + k) := hblocks
  have hmoves : Moves s (a.rest.take k) b.sim := hmoves
  have hcursor : b.blocks.cursor = a.cursor + k := by rw [hblocks]; rfl
  have hsent : sent = a.rest.take k := by
    simp only [sent, hcursor, Nat.add_sub_cancel_left, BlockArray.rest]
  have hbound : k ≤ a.length - a.cursor := hbound
  have hlength : (a.rest.take k).length = k := by
    rw [List.length_take, a.length_rest, BlockArray.remaining]
    omega
  obtain ⟨gone, hqueue, hretired⟩ := hmoves.queue
  have hgone : b.sim.retired - s.retired = gone.length := by omega
  have hcommitted : b.sim.committed = s.committed + (b.blocks.cursor - a.cursor) := by
    rw [hmoves.committed, hlength, hcursor]
    omega
  have hleft : b.sim.queue = (s.queue ++ sent).drop (b.sim.retired - s.retired) := by
    rw [hsent, hqueue, hgone, List.drop_left]
  refine ⟨by rw [hblocks]; rfl, by omega, by omega, hcommitted, by omega, hleft, ?_,
    hmoves.overflow, fun hmax => ?_, fun hmax => ?_⟩
  · have hcount := congrArg List.length hqueue
    rw [List.length_append, List.length_append, hlength] at hcount
    omega
  · rw [counted_of_le hmax, counted_of_le (by omega), hcommitted]
  · rw [counted_of_le hmax, counted_of_le (by omega), hleft]

/-- Two blocks and room for one: the first execution gives up, and after a retirement the
next one goes on with the second block. -/
theorem run_exactly_once_after_timeout :
    let first : Block := { x := { instruction := 1, rate := 100, count := 16, width := 4 } }
    let second : Block := { y := { instruction := 2, rate := 50 } }
    let a : BlockArray Block := { (.empty : BlockArray Block) with entries := #[first, second] }
    let s := ({} : Simulator).withDepth 1
    let acts : List Action :=
      [.setAutoDrain false, .operate .execute, .operate (.stage first), .drain 1,
        .operate .execute]
    let b := Bench.run { pollLimit := 2 } .off acts ⟨s, a⟩
    (s.fault = none ∧ a.cursor ≤ a.length ∧ ∀ act ∈ acts, act.Streams) ∧
      b.sim.committed = 2 ∧ b.sim.queue = [second] := by
  intro first second a s acts
  have hacts : ∀ act ∈ acts, act.Streams := by simp [acts, Action.Streams]
  have hcursor : (Bench.run { pollLimit := 2 } .off acts ⟨s, a⟩).blocks.cursor = 2 := by
    decide +kernel
  have hretired : (Bench.run { pollLimit := 2 } .off acts ⟨s, a⟩).sim.retired = 1 := by
    decide +kernel
  have h := run_exactly_once { pollLimit := 2 } .off s a acts rfl (by decide) hacts
  -- Only the theorem and these two numbers tell what the run has done.
  generalize Bench.run { pollLimit := 2 } .off acts ⟨s, a⟩ = b at h hcursor hretired
  obtain ⟨-, -, -, hcommitted, -, hqueue, -, -⟩ := h
  rw [hcursor] at hcommitted hqueue
  rw [hretired] at hqueue
  exact ⟨⟨rfl, by decide, hacts⟩, hcommitted, hqueue⟩

end PulseMill
