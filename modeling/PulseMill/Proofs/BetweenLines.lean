import PulseMill.Proofs.AssemblyChange
set_option autoImplicit false

/-!
What holds of an assembler between two lines, whatever has been read. Within a line most of it is
given up and restored, so it is derived from what each change keeps to.
-/

namespace PulseMill

open Assembly (compileMotion compileBlock)

/-- Each axis moves one way or the other, or rests. -/
def Block.IsMotion (b : Block) : Prop :=
  ∀ axis w, b.axis? axis = some w → w.instruction = 0 ∨ w.instruction = 1 ∨ w.instruction = 2

theorem Opcode.Means.isMotion {op : Opcode} {w : AxisWords} (h : op.Means w) (hop : op.Moves) :
    w.instruction = 0 ∨ w.instruction = 1 ∨ w.instruction = 2 := by
  obtain ⟨-, m, hm, hpseudo⟩ := hop
  obtain ⟨n, hn, hinstruction⟩ := h.instruction
  obtain rfl := hm.unique hn
  rw [hinstruction]
  cases m
  case header | config => cases hpseudo
  case nop | dwell => exact .inl rfl
  case cw => exact .inr (.inl rfl)
  case ccw => exact .inr (.inr rfl)

theorem Slots.Proper.isMotion {s : Slots} {b : Block} (h : s.Proper)
    (hb : compileBlock s = .ok b) : b.IsMotion := by
  intro axis w hw
  have haxis : axis.isMotion := by cases axis <;> first | rfl | cases hw
  obtain ⟨op, hop⟩ := Option.isSome_iff_exists.1 (get?_isSome_of_isMotion (s := s) haxis)
  have hcompile := compileBlock_eq_ok.1 hb axis op w hop hw
  rcases h.motion axis op haxis hop with rfl | ⟨-, hmoves⟩
  · rw [Assembly.compileMotion_empty] at hcompile
    cases hcompile
    exact .inl rfl
  · exact ((compileMotion_eq_ok hmoves).1 hcompile).isMotion hmoves

namespace Assembler

variable {reserve : Reserve} {st next : Assembler} {axis : Axis} {bs : List Block}

structure Stocked (st : Assembler) : Prop where
  motion : ∀ b ∈ st.blocks.toList, b.IsMotion
  info : st.blocks.toList ≠ [] → st.info.isComplete

theorem Change.stocked (h : Change reserve st bs next) (hst : st.Placed) (k : st.Stocked) :
    next.Stocked := by
  cases h with
  | opening => exact ⟨k.motion, k.info⟩
  | selection => exact ⟨k.motion, k.info⟩
  | naming => exact ⟨k.motion, k.info⟩
  | argument => exact ⟨k.motion, k.info⟩
  | info _ _ _ hadds => exact ⟨k.motion, fun hne => absurd (k.info hne) hadds.not_isComplete⟩
  | motion => exact ⟨k.motion, k.info⟩
  | @closing block blocks hmode hblock hpush =>
    refine ⟨fun b hb => ?_, fun _ => hst.opened hmode⟩
    have hb : b ∈ blocks.toList := hb
    rw [BlockArray.toList_push hpush, List.mem_append, List.mem_singleton] at hb
    rcases hb with hb | rfl
    · exact k.motion b hb
    · exact hst.slots.isMotion hblock

theorem Changes.stocked (h : Changes reserve st bs next) (hst : st.Placed) (k : st.Stocked) :
    next.Stocked := by
  induction h with
  | refl => exact k
  | tail hfirst hlast ih => exact hlast.stocked (hfirst.placed hst) ih

structure Settled (st : Assembler) : Prop where
  progress : st.progress = .idle
  mode : st.mode ≠ .implicit
  placed : st.Placed
  stopped : st.failed.isSome → st.mode = .closed
  possible : ∀ e ∈ st.failed, e.fault ≠ .malformedAxisState

def stop (st : Assembler) (e : Assembly.Error) : Assembler := { st.discard with failed := some e }

/-- All that can become of a line. -/
inductive LineStep (reserve : Reserve) (tokens : List String) : Assembler → Assembler → Prop where
  | ignored {st : Assembler} : st.failed.isSome → LineStep reserve tokens st st
  | uncounted {st : Assembler} : st.failed = none → maxLine ≤ st.line →
      LineStep reserve tokens st (st.stop ⟨none, .lineNumberOverflow⟩)
  | read {st next : Assembler} : st.failed = none → st.line < maxLine →
      st.advance.readTokens reserve tokens = .ok next → LineStep reserve tokens st next
  | refused {st mid : Assembler} {f : Assembly.Fault} : st.failed = none → st.line < maxLine →
      st.advance.readTokens reserve tokens = .error (f, mid) →
      LineStep reserve tokens st (mid.stop ⟨some mid.line, f⟩)

theorem Settled.line (h : st.Settled) (line : String) :
    LineStep reserve (tokensOf line) st (st.readLine reserve line) := by
  unfold readLine
  split
  case isTrue hfailed => exact .ignored hfailed
  case isFalse hfailed =>
    have hnone : st.failed = none := by simpa using hfailed
    split
    case isTrue hcount => exact .uncounted hnone hcount
    case isFalse hcount =>
      have hless : st.line < maxLine := by omega
      cases tokensOf line with
      | nil =>
        -- A line without tokens is not read at all, and its end would make no difference.
        have hend : st.advance.endLine reserve = .ok st.advance := by
          simp only [endLine, advance, h.progress]
          exact if_neg h.mode
        exact .read hnone hless hend
      | cons token tokens =>
        dsimp only
        split
        case h_1 next hread => exact .read hnone hless hread
        case h_2 f mid hread => exact .refused hnone hless hread

theorem Settled.advance_placed (h : st.Settled) : st.advance.Placed :=
  ⟨h.placed.suits, h.placed.closed, h.placed.opened, h.placed.slots, h.placed.info⟩

theorem Placed.stop (h : st.Placed) (e : Assembly.Error) : (st.stop e).Placed :=
  ⟨trivial, fun _ => rfl, fun hmode => absurd rfl hmode, Slots.proper_empty, h.info⟩

theorem Placed.settled_stop (h : st.Placed) {e : Assembly.Error}
    (he : e.fault ≠ .malformedAxisState) : (st.stop e).Settled where
  progress := rfl
  mode := nofun
  placed := h.stop e
  stopped _ := rfl
  possible := by
    intro e' he'
    obtain rfl := Option.some.inj he'
    exact he

variable {tokens : List String}

/-- The blocks that come to their end on the line. After an error none does. -/
def completedOn (reserve : Reserve) (st : Assembler) (tokens : List String) : List Block :=
  if st.failed.isSome then [] else st.advance.completed reserve (tokens.map .word ++ [.lineEnd])

theorem completedOn_eq (h : st.failed = none) :
    st.completedOn reserve tokens =
      st.advance.completed reserve (tokens.map .word ++ [.lineEnd]) := by
  simp [completedOn, h]

theorem Settled.changes_of_read (h : st.Settled)
    (hread : st.advance.readTokens reserve tokens = .ok next) :
    Changes reserve st.advance
      (st.advance.completed reserve (tokens.map .word ++ [.lineEnd])) next := by
  have hchanges := readTokens_changes reserve h.advance_placed tokens
  rwa [hread] at hchanges

theorem Settled.changes_of_refused {f : Assembly.Fault} (h : st.Settled)
    (hread : st.advance.readTokens reserve tokens = .error (f, next)) :
    Changes reserve st.advance
        (st.advance.completed reserve (tokens.map .word ++ [.lineEnd])) next ∧
      f ≠ .malformedAxisState := by
  have hchanges := readTokens_changes reserve h.advance_placed tokens
  rwa [hread] at hchanges

theorem LineStep.settled (h : LineStep reserve tokens st next) (hst : st.Settled) :
    next.Settled := by
  cases h with
  | ignored => exact hst
  | uncounted => exact hst.placed.settled_stop nofun
  | read hnone _ hread =>
    have hplaced := (hst.changes_of_read hread).placed hst.advance_placed
    obtain ⟨hkeeps, hidle, hmode⟩ := readTokens_law hread
    have hfailed : next.failed = none := hkeeps.2.trans hnone
    exact ⟨hidle, hmode, hplaced, by simp [hfailed], by simp [hfailed]⟩
  | refused _ _ hread =>
    obtain ⟨hchanges, hpossible⟩ := hst.changes_of_refused hread
    exact (hchanges.placed hst.advance_placed).settled_stop hpossible

theorem LineStep.stocked (h : LineStep reserve tokens st next) (hst : st.Settled) (k : st.Stocked) :
    next.Stocked := by
  have hk : st.advance.Stocked := ⟨k.motion, k.info⟩
  cases h with
  | ignored => exact k
  | uncounted => exact ⟨k.motion, k.info⟩
  | read _ _ hread => exact (hst.changes_of_read hread).stocked hst.advance_placed hk
  | refused _ _ hread =>
    have hmid := (hst.changes_of_refused hread).1.stocked hst.advance_placed hk
    exact ⟨hmid.motion, hmid.info⟩

theorem settled_ofBlocks (a : BlockArray Block) : (ofBlocks a).Settled where
  progress := rfl
  mode := nofun
  placed := ⟨trivial, fun _ => rfl, fun h => absurd rfl h, Slots.proper_empty, Info.proper_empty⟩
  stopped := nofun
  possible := nofun

theorem Settled.readLines (h : st.Settled) (lines : List String) :
    (st.readLines reserve lines).Settled := by
  induction lines generalizing st with
  | nil => exact h
  | cons line lines ih => exact ih ((h.line line).settled h)

/-- States between two lines, whatever memory there was for each of them. -/
inductive Reachable : Assembler → Prop where
  | start (a : BlockArray Block) : Reachable (ofBlocks a)
  | line {st : Assembler} (reserve : Reserve) (line : String) :
      Reachable st → Reachable (st.readLine reserve line)

theorem Reachable.settled (h : st.Reachable) : st.Settled := by
  induction h with
  | start a => exact settled_ofBlocks a
  | line reserve line _ ih => exact (ih.line line).settled ih

theorem LineStep.line_le (h : LineStep reserve tokens st next) (hst : st.Settled)
    (hle : st.line ≤ maxLine) : next.line ≤ maxLine := by
  cases h with
  | ignored => exact hle
  | uncounted => exact hle
  | read _ hless hread =>
    rw [(hst.changes_of_read hread).keeps.1]
    exact hless
  | refused _ hless hread =>
    have hkeeps := (hst.changes_of_refused hread).1.keeps.1
    exact hkeeps.trans_le hless

theorem Reachable.line_le (h : st.Reachable) : st.line ≤ maxLine := by
  induction h with
  | start => exact Nat.zero_le _
  | line reserve line hst ih => exact (hst.settled.line line).line_le hst.settled ih

theorem Reachable.readLines (h : st.Reachable) (lines : List String) :
    (st.readLines reserve lines).Reachable := by
  induction lines generalizing st with
  | nil => exact h
  | cons line lines ih => exact ih (h.line reserve line)

/-- A block may begin: nothing has gone wrong, none is open, and the lines of the file's own are
there. -/
structure AwaitsBlock (st : Assembler) : Prop where
  reachable : st.Reachable
  failed : st.failed = none
  closed : st.isOpen = false
  info : st.info.isComplete

theorem readLine_empty (hst : st.failed = none) (hless : st.line < maxLine) :
    st.readLine reserve "" = st.advance := by
  have hnone : tokensOf "" = [] := by decide
  rw [readLine, if_neg (by simp [hst]), if_neg (Nat.not_le.2 hless), hnone]
  rfl

theorem readLines_empty (hst : st.failed = none) {n : Nat} (hn : st.line + n ≤ maxLine) :
    st.readLines reserve (List.replicate n "") = { st with line := st.line + n } := by
  induction n generalizing st with
  | zero => rfl
  | succ n ih =>
    have hrest : st.advance.readLines reserve (List.replicate n "") =
        { st.advance with line := st.advance.line + n } := by
      refine ih hst ?_
      show st.line + 1 + n ≤ maxLine
      omega
    have hcount : st.advance.line + n = st.line + (n + 1) := by
      show st.line + 1 + n = _
      omega
    have hcons : st.readLines reserve (List.replicate (n + 1) "") =
        (st.readLine reserve "").readLines reserve (List.replicate n "") := rfl
    rw [hcons, readLine_empty hst (by omega), hrest, hcount]
    rfl

def preamble (n : Nat) : List String := ["INFO, HEADER", "INFO, CONFIG"] ++ List.replicate n ""

def afterPreamble (n : Nat) : Assembler where
  line := n + 2
  info := ⟨some (.ofArgs .info "HEADER" []), some (.ofArgs .info "CONFIG" [])⟩
  blocks := .empty

theorem readLines_preamble {n : Nat} (hn : n + 2 ≤ maxLine) :
    (ofBlocks .empty).readLines (fun _ => true) (preamble n) = afterPreamble n := by
  have htwo : (ofBlocks .empty).readLines (fun _ => true) ["INFO, HEADER", "INFO, CONFIG"] =
      afterPreamble 0 := by decide +kernel
  have hempty : (afterPreamble 0).readLines (fun _ => true) (List.replicate n "") =
      { afterPreamble 0 with line := 2 + n } :=
    readLines_empty rfl (by rwa [Nat.add_comm] at hn)
  rw [readLines] at htwo hempty
  rw [readLines, preamble, List.foldl_append, htwo, hempty, Nat.add_comm]
  rfl

theorem awaitsBlock_afterPreamble {n : Nat} (hn : n + 2 ≤ maxLine) :
    (afterPreamble n).AwaitsBlock where
  reachable := by
    rw [← readLines_preamble hn]
    exact (Reachable.start .empty).readLines _
  failed := rfl
  closed := rfl
  info := rfl

theorem isComplete_iff {i : Info} : i.isComplete ↔ i.header.isSome ∧ i.config.isSome := by
  simp [Info.isComplete]

end Assembler

end PulseMill
