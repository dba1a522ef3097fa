import PulseMill.Proofs.FailStop
import PulseMill.Proofs.InStep
set_option autoImplicit false

namespace PulseMill.Assembler

open Assembly (Error)

variable {reserve reserve' : Reserve} {st tw : Assembler} {lines : List String}

/-- Nothing has failed for want of memory, or of numbers for the lines. -/
def Supplied (st : Assembler) : Prop := ∀ e ∈ st.failed, e.fault.category ≠ .resource

/-- Both programs have all lines of the file's own, and the same blocks come after those that had
been there. Either array may run out of memory. -/
def isolated (reserve reserve' : Reserve) (before before' : List Block) :
    Coupling reserve reserve' where
  excused f := f.category = .resource
  rel p q := p.info.isComplete ∧ q.info.isComplete ∧
    ∃ bs, p.blocks.toList = before ++ bs ∧ q.blocks.toList = before' ++ bs
  header h := by rw [(isComplete_iff.1 h.1).1, (isComplete_iff.1 h.2.1).1]
  config h := by rw [(isComplete_iff.1 h.1).2, (isComplete_iff.1 h.2.1).2]
  addHeader h _ :=
    ⟨isComplete_iff.2 ⟨rfl, (isComplete_iff.1 h.1).2⟩,
      isComplete_iff.2 ⟨rfl, (isComplete_iff.1 h.2.1).2⟩, h.2.2⟩
  addConfig h _ :=
    ⟨isComplete_iff.2 ⟨(isComplete_iff.1 h.1).1, rfl⟩,
      isComplete_iff.2 ⟨(isComplete_iff.1 h.2.1).1, rfl⟩, h.2.2⟩
  push {p q} b h := by
    obtain ⟨hp, hq, bs, hbs, hbs'⟩ := h
    cases hx : p.blocks.push reserve b with
    | error e => exact .inr (.inr (.inl ⟨e, rfl, rfl⟩))
    | ok x =>
      cases hy : q.blocks.push reserve' b with
      | error e => exact .inr (.inr (.inr ⟨e, rfl, rfl⟩))
      | ok y =>
        refine .inl ⟨x, y, rfl, rfl, hp, hq, bs ++ [b], ?_, ?_⟩
        · rw [BlockArray.toList_push hx, hbs, List.append_assoc]
        · rw [BlockArray.toList_push hy, hbs', List.append_assoc]

abbrev FromHere (reserve reserve' : Reserve) (st tw : Assembler) : Prop :=
  (isolated reserve reserve' st.blocks.toList tw.blocks.toList).Abreast st tw

theorem fromHere {before before' : List Block}
    (h : (isolated reserve reserve' before before').Abreast st tw) :
    FromHere reserve reserve' st tw := by
  cases h with
  | inStep hstep hfault =>
    obtain ⟨hp, hq, -⟩ := hstep.program
    have hnothing : ∃ bs, st.blocks.toList = st.blocks.toList ++ bs ∧
        tw.blocks.toList = tw.blocks.toList ++ bs :=
      ⟨[], (List.append_nil _).symm, (List.append_nil _).symm⟩
    exact .inStep ⟨hstep.progress, hstep.mode, hstep.slots, hp, hq, hnothing⟩ hfault
  | left he hexcused => exact .left he hexcused
  | right he hexcused => exact .right he hexcused

theorem AwaitsBlock.fromHere (hst : st.AwaitsBlock) (htw : tw.AwaitsBlock) :
    FromHere reserve reserve' st tw := by
  have hsettled := hst.reachable.settled
  have htwSettled := htw.reachable.settled
  have hclosed : st.mode = .closed := by simpa [isOpen] using hst.closed
  have htwClosed : tw.mode = .closed := by simpa [isOpen] using htw.closed
  refine .inStep ⟨?_, ?_, ?_, hst.info, htw.info, [], ?_, ?_⟩ ?_
  · rw [hsettled.progress, htwSettled.progress]
    exact .idle
  · rw [hclosed, htwClosed]
  · rw [hsettled.placed.closed hclosed, htwSettled.placed.closed htwClosed]
    exact .refl _
  · exact (List.append_nil _).symm
  · exact (List.append_nil _).symm
  · rw [hst.failed, htw.failed]

theorem FromHere.readLine (h : FromHere reserve reserve' st tw) (hst : st.Settled)
    (htw : tw.Settled) (line : String) :
    (isolated reserve reserve' st.blocks.toList tw.blocks.toList).Abreast
      (st.readLine reserve line) (tw.readLine reserve' line) :=
  Coupling.Abreast.readLine h hst htw (fun _ => .inr rfl) (List.forall₂_same.2 fun _ _ => rfl)

theorem FromHere.readLines (h : FromHere reserve reserve' st tw) (hst : st.Settled)
    (htw : tw.Settled) (lines : List String) :
    FromHere reserve reserve' (st.readLines reserve lines) (tw.readLines reserve' lines) := by
  induction lines generalizing st tw with
  | nil => exact h
  | cons line lines ih =>
    exact ih (Assembler.fromHere (h.readLine hst htw line)) ((hst.line line).settled hst)
      ((htw.line line).settled htw)

theorem Supplied.take (h : (st.readLines reserve lines).Supplied) (k : Nat) :
    (st.readLines reserve (lines.take k)).Supplied := by
  intro e he
  have hstays : (st.readLines reserve (lines.take k)).readLines reserve (lines.drop k) =
      st.readLines reserve (lines.take k) :=
    failed_readLines (Option.isSome_of_mem he) _
  have hsame : st.readLines reserve lines = st.readLines reserve (lines.take k) := by
    rw [← hstays, Assembler.readLines, Assembler.readLines, Assembler.readLines,
      ← List.foldl_append, List.take_append_drop]
  rw [hsame] at h
  exact h e he

/-- Two assemblers that await a block, each with a history of its own, read the same lines alike,
as far as both have memory and can count the lines: each line is read by both or refused by both
for the same reason, both have a block open or neither, and the same blocks are appended. -/
theorem readLines_isolated (hst : st.AwaitsBlock) (htw : tw.AwaitsBlock)
    (hsupplied : (st.readLines reserve lines).Supplied)
    (htwSupplied : (tw.readLines reserve' lines).Supplied) :
    let after (k : Nat) := st.readLines reserve (lines.take k)
    let after' (k : Nat) := tw.readLines reserve' (lines.take k)
    (∀ k line, lines[k]? = some line →
      (after (k + 1)).failed.map Error.fault = (after' (k + 1)).failed.map Error.fault ∧
      (after (k + 1)).isOpen = (after' (k + 1)).isOpen ∧
      ∃ bs, (after (k + 1)).blocks.toList = (after k).blocks.toList ++ bs ∧
        (after' (k + 1)).blocks.toList = (after' k).blocks.toList ++ bs) ∧
    (after lines.length).finish.isOk = (after' lines.length).finish.isOk := by
  intro after after'
  have hsettled := hst.reachable.settled
  have htwSettled := htw.reachable.settled
  have hhere (k : Nat) : FromHere reserve reserve' (after k) (after' k) :=
    (hst.fromHere htw).readLines hsettled htwSettled _
  have hgoesOn {before before' : List Block} {k : Nat}
      (h : (isolated reserve reserve' before before').Abreast (after k) (after' k)) :
      (isolated reserve reserve' before before').InStep (after k) (after' k) ∧
        (after k).failed.map Error.fault = (after' k).failed.map Error.fault :=
    h.unexcused (hsupplied.take k) (htwSupplied.take k)
  refine ⟨fun k line hk => ?_, ?_⟩
  · have hline : (isolated reserve reserve' (after k).blocks.toList
        (after' k).blocks.toList).Abreast (after (k + 1)) (after' (k + 1)) := by
      have hread := (hhere k).readLine (hsettled.readLines _) (htwSettled.readLines _) line
      rwa [← readLines_take_succ hk, ← readLines_take_succ hk] at hread
    obtain ⟨hstep, hfault⟩ := hgoesOn hline
    exact ⟨hfault, hstep.isOpen_eq, hstep.program.2.2⟩
  · obtain ⟨hstep, hfault⟩ := hgoesOn (hhere lines.length)
    rcases hstep.finish hfault with ⟨e, e', he, he', -⟩ | ⟨hok, hok'⟩
    · rw [he, he']
      rfl
    · rw [hok, hok']
      rfl

/-- One has a block behind it and the other has none, and their own lines differ. A block is
appended to both, and the next one is refused by both. -/
theorem readLines_isolated_after_block :
    let any : Reserve := fun _ => true
    let st := (ofBlocks .empty).readLines any ["INFO, HEADER, 1", "INFO, CONFIG, 4", "X, CCW, 7, 7"]
    let tw := (ofBlocks .empty).readLines any ["info, config, 0x2 ; no header", "", "info, header"]
    let lines := ["begin, X, CW", "Y, DWELL, 5", "end", "X, CW, five"]
    (st.AwaitsBlock ∧ st.blocks.length = 1) ∧ (tw.AwaitsBlock ∧ tw.blocks.length = 0) ∧
      st.info ≠ tw.info ∧ (st.readLines any lines).Supplied ∧ (tw.readLines any lines).Supplied ∧
      (st.readLines any lines).failed.map Error.fault = some .malformedNumber ∧
      (tw.readLines any lines).failed.map Error.fault = some .malformedNumber ∧
      ∃ bs, bs ≠ [] ∧
        (st.readLines any (lines.take 3)).blocks.toList =
          (st.readLines any (lines.take 2)).blocks.toList ++ bs ∧
        (tw.readLines any (lines.take 3)).blocks.toList =
          (tw.readLines any (lines.take 2)).blocks.toList ++ bs := by
  intro any st tw lines
  have hreachable (history : List String) : ((ofBlocks .empty).readLines any history).Reachable :=
    (Reachable.start .empty).readLines history
  have hst : st.AwaitsBlock :=
    ⟨hreachable _, by decide +kernel, by decide +kernel, by decide +kernel⟩
  have htw : tw.AwaitsBlock :=
    ⟨hreachable _, by decide +kernel, by decide +kernel, by decide +kernel⟩
  have hfault : (st.readLines any lines).failed.map Error.fault = some .malformedNumber := by
    decide +kernel
  have hsupplied : (st.readLines any lines).Supplied := by
    unfold Supplied
    decide +kernel
  have htwSupplied : (tw.readLines any lines).Supplied := by
    unfold Supplied
    decide +kernel
  obtain ⟨hlines, -⟩ := readLines_isolated hst htw hsupplied htwSupplied
  obtain ⟨-, -, bs, hbs, hbs'⟩ := hlines 2 "end" rfl
  refine ⟨⟨hst, by decide +kernel⟩, ⟨htw, by decide +kernel⟩, by decide +kernel, hsupplied,
    htwSupplied, hfault, (hlines 3 "X, CW, five" rfl).1.symm.trans hfault, bs, ?_, hbs, hbs'⟩
  rintro rfl
  have hgrown : (st.readLines any (lines.take 3)).blocks.toList ≠
      (st.readLines any (lines.take 2)).blocks.toList := by decide +kernel
  exact hgrown (hbs.trans (List.append_nil _))

/-- With the count of lines it is different. Of two assemblers that await a block, only one has come
to the last line that can be counted, and an empty line is refused by that one alone. -/
theorem readLines_isolated_not_at_last_line :
    let any : Reserve := fun _ => true
    let st := (ofBlocks .empty).readLines any (preamble 0)
    let tw := (ofBlocks .empty).readLines any (preamble (maxLine - 2))
    st.AwaitsBlock ∧ tw.AwaitsBlock ∧
      (st.readLines any [""]).failed.map Error.fault = none ∧
      (tw.readLines any [""]).failed.map Error.fault = some .lineNumberOverflow := by
  intro any st tw
  have hst : st = afterPreamble 0 := readLines_preamble (by decide)
  have htw : tw = afterPreamble (maxLine - 2) := readLines_preamble (by decide)
  rw [hst, htw]
  exact ⟨awaitsBlock_afterPreamble (by decide), awaitsBlock_afterPreamble (by decide),
    by decide +kernel, by decide +kernel⟩

end PulseMill.Assembler
