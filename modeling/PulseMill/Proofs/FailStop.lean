import PulseMill.Proofs.BetweenLines
set_option autoImplicit false

namespace PulseMill.Assembler

open Assembly (Error compileBlock)

variable {reserve : Reserve} {st next : Assembler} {tokens lines : List String} {e : Error}

/-- An error on the last line that was read. It is there to stay, and nothing is left open. -/
structure Stopped (reserve : Reserve) (st : Assembler) (e : Error) : Prop where
  failed : st.failed = some e
  line : e.line = some st.line
  open_eq : st.isOpen = false
  slots : st.slots = {}
  progress : st.progress = .idle
  frozen : ∀ lines, st.readLines reserve lines = st
  finish : st.finish = .error e

theorem compiled_of_mem_completed {b : Block} {ls : List Lexeme} (h : b ∈ st.completed reserve ls) :
    ∃ slots, compileBlock slots = .ok b := by
  induction ls generalizing st with
  | nil => cases h
  | cons l ls ih =>
    simp only [completed] at h
    split at h
    case h_2 => cases h
    case h_1 mid _ =>
      rcases List.mem_append.1 h with h | h
      · unfold completedBy at h
        split at h
        · refine ⟨st.gathered, ?_⟩
          simp only [compiled, Option.mem_toList] at h
          cases hblock : compileBlock st.gathered with
          | error f =>
            rw [hblock] at h
            cases h
          | ok block =>
            rw [hblock] at h
            exact congrArg _ (Option.some.inj h)
        · cases h
      · exact ih h

theorem compiled_of_mem_completedOn {b : Block} (h : b ∈ st.completedOn reserve tokens) :
    ∃ slots, compileBlock slots = .ok b := by
  unfold completedOn at h
  split at h
  · cases h
  · exact compiled_of_mem_completed h

theorem LineStep.blocks (h : LineStep reserve tokens st next) (hst : st.Settled)
    (hcount : st.failed = none → st.line < maxLine) :
    next.blocks.toList = st.blocks.toList ++ st.completedOn reserve tokens := by
  cases h with
  | ignored hfailed => rw [completedOn, if_pos hfailed, List.append_nil]
  | uncounted hnone hfull => exact absurd (hcount hnone) (Nat.not_lt.2 hfull)
  | read hnone _ hread =>
    rw [completedOn_eq hnone]
    exact (hst.changes_of_read hread).blocks
  | refused hnone _ hread =>
    rw [completedOn_eq hnone]
    exact (hst.changes_of_refused hread).1.blocks

theorem LineStep.line_eq (h : LineStep reserve tokens st next) (hst : st.Settled)
    (hnone : st.failed = none) (hcount : st.line < maxLine) : next.line = st.line + 1 := by
  cases h with
  | ignored hfailed => simp [hnone] at hfailed
  | uncounted _ hfull => omega
  | read _ _ hread => exact (hst.changes_of_read hread).keeps.1
  | refused _ _ hread => exact (hst.changes_of_refused hread).1.keeps.1

theorem stopped_stop {f : Assembly.Fault} : (st.stop ⟨some st.line, f⟩).Stopped reserve
    ⟨some st.line, f⟩ where
  failed := rfl
  line := rfl
  open_eq := rfl
  slots := rfl
  progress := rfl
  frozen := failed_readLines rfl
  finish := rfl

theorem LineStep.stopped (h : LineStep reserve tokens st next) (hst : st.Settled)
    (hnone : st.failed = none) (hcount : st.line < maxLine) (he : next.failed = some e) :
    next.Stopped reserve e := by
  cases h with
  | ignored hfailed => simp [hnone] at hfailed
  | uncounted _ hfull => omega
  | read _ _ hread =>
    have hkeeps : next.failed = st.failed := (hst.changes_of_read hread).keeps.2
    rw [hkeeps, hnone] at he
    cases he
  | refused =>
    obtain rfl := Option.some.inj he
    exact stopped_stop

theorem readLines_take_succ {k : Nat} {line : String} (h : lines[k]? = some line) :
    st.readLines reserve (lines.take (k + 1)) =
      (st.readLines reserve (lines.take k)).readLine reserve line := by
  rw [readLines, List.take_add_one, h, Option.toList_some, List.foldl_append]
  rfl

theorem Settled.line_take (h : st.Settled) {k : Nat} {line : String} (hk : lines[k]? = some line) :
    LineStep reserve (tokensOf line) (st.readLines reserve (lines.take k))
      (st.readLines reserve (lines.take (k + 1))) := by
  rw [readLines_take_succ hk]
  exact (h.readLines _).line line

theorem readLines_line {a : BlockArray Block} (hlength : lines.length ≤ maxLine) {k : Nat}
    (hk : k ≤ lines.length)
    (hnone : ((ofBlocks a).readLines reserve (lines.take k)).failed = none) :
    ((ofBlocks a).readLines reserve (lines.take k)).line = k := by
  induction k with
  | zero => rfl
  | succ k ih =>
    have hget : lines[k]? = some lines[k] := List.getElem?_eq_getElem hk
    have hst : ((ofBlocks a).readLines reserve (lines.take k)).Settled :=
      (settled_ofBlocks a).readLines _
    have hline : LineStep reserve (tokensOf lines[k])
        ((ofBlocks a).readLines reserve (lines.take k))
        ((ofBlocks a).readLines reserve (lines.take (k + 1))) := (settled_ofBlocks a).line_take hget
    have hbefore : ((ofBlocks a).readLines reserve (lines.take k)).failed = none := by
      by_contra hsome
      rw [readLines_take_succ hget,
        readLine_of_failed (Option.ne_none_iff_isSome.1 hsome)] at hnone
      exact hsome hnone
    have hcount := ih (by omega) hbefore
    rw [hline.line_eq hst hbefore (by omega), hcount]

/-- Line by line the array grows by the blocks that come to their end on the line, up to its first
error, and all that it holds has been compiled as a whole. That error is about the line it is on, it
is there to stay, and nothing changes any more. Where there is none, only an open block or a missing
line of the file's own can be wrong. -/
theorem readLines_fail_stop (reserve : Reserve) (a : BlockArray Block) (lines : List String)
    (hlength : lines.length < UInt32.size) :
    let after (k : Nat) := (ofBlocks a).readLines reserve (lines.take k)
    (∀ k line, lines[k]? = some line →
      (after (k + 1)).blocks.toList =
        (after k).blocks.toList ++ (after k).completedOn reserve (tokensOf line) ∧
      ∀ b ∈ (after k).completedOn reserve (tokensOf line), ∃ slots, compileBlock slots = .ok b) ∧
    (∀ n e, (after n).failed = none → (after (n + 1)).failed = some e →
      (after (n + 1)).Stopped reserve e ∧ (after (n + 1)).line = n + 1) ∧
    ((after lines.length).failed = none →
      (after lines.length).line = lines.length ∧
      (after lines.length).finish =
        if (after lines.length).isOpen then .error ⟨some lines.length, .unterminatedBlock⟩
        else if (after lines.length).info.header = none then .error ⟨none, .missingHeader⟩
        else if (after lines.length).info.config = none then .error ⟨none, .missingConfig⟩
        else .ok (after lines.length).program) := by
  intro after
  have hmax : lines.length ≤ maxLine := by
    simp only [maxLine, UInt32.size] at hlength ⊢
    omega
  have hsettled (k : Nat) : (after k).Settled := (settled_ofBlocks a).readLines _
  have hline {k : Nat} {line : String} (hk : lines[k]? = some line) :
      LineStep reserve (tokensOf line) (after k) (after (k + 1)) :=
    (settled_ofBlocks a).line_take hk
  have hcount {k : Nat} (hk : k ≤ lines.length) (hnone : (after k).failed = none) :
      (after k).line = k := readLines_line hmax hk hnone
  refine ⟨fun k line hk => ⟨?_, fun b => compiled_of_mem_completedOn⟩, fun n e hnone he => ?_,
    fun hnone => ?_⟩
  · have hless := (List.getElem?_eq_some_iff.1 hk).1
    refine (hline hk).blocks (hsettled k) fun hnone => ?_
    have hk := hcount (by omega) hnone
    omega
  · -- Behind the last line nothing more is read, so there is no error to be found there.
    have hless : n < lines.length := by
      by_contra hle
      have hsame : after (n + 1) = after n := by
        simp only [after]
        rw [List.take_of_length_le (by omega), List.take_of_length_le (by omega)]
      rw [hsame, hnone] at he
      cases he
    have hget : lines[n]? = some lines[n] := List.getElem?_eq_getElem hless
    have hn := hcount (by omega) hnone
    have hfew : (after n).line < maxLine := by omega
    exact ⟨(hline hget).stopped (hsettled n) hnone hfew he,
      ((hline hget).line_eq (hsettled n) hnone hfew).trans (congrArg (· + 1) hn)⟩
  · have hline := hcount (Nat.le_refl _) hnone
    refine ⟨hline, ?_⟩
    have hidle := (hsettled lines.length).progress
    simp [Assembler.finish, hnone, hline, hidle, program]

/-- The third block of a line finds no room. The two before it stay, and the line after it is not
read. -/
theorem readLines_fail_stop_without_room :
    let a : BlockArray Block :=
      { entries := #[], capacity := 1, increment := 1, cursor := 0, growths := 0 }
    let reserve : Reserve := fun n => n ≤ 2
    let full := "begin, end, begin, end, begin, end"
    let lines := ["INFO, HEADER", "INFO, CONFIG", full, "X, CW"]
    let after (k : Nat) := (ofBlocks a).readLines reserve (lines.take k)
    lines.length < UInt32.size ∧ (after 2).failed = none ∧
      (after 3).Stopped reserve ⟨some 3, .blockArray ⟨3⟩⟩ ∧
      (after 3).blocks.toList = [{}, {}] ∧ (after 3).readLines reserve ["X, CW"] = after 3 := by
  intro a reserve full lines after
  have hlength : lines.length < UInt32.size := by decide
  obtain ⟨hnone, hfailed, hended⟩ : (after 2).failed = none ∧
      (after 3).failed = some ⟨some 3, .blockArray ⟨3⟩⟩ ∧
      (after 2).blocks.toList ++ (after 2).completedOn reserve (tokensOf full) = [{}, {}] := by
    decide +kernel
  obtain ⟨hblocks, hstops, -⟩ := readLines_fail_stop reserve a lines hlength
  have hstopped := (hstops 2 _ hnone hfailed).1
  exact ⟨hlength, hnone, hstopped, (hblocks 2 full rfl).1.trans hended, hstopped.frozen _⟩

end PulseMill.Assembler
