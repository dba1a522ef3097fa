import PulseMill.Proofs.FailStop
import PulseMill.Proofs.InStep
import PulseMill.Proofs.Spelling
set_option autoImplicit false

namespace PulseMill

namespace Text

def Resembles (p q : List Char) : Prop :=
  ∃ before body after before' body' after', p = before ++ body ++ after ∧
    q = before' ++ body' ++ after' ∧ (∀ c ∈ before ++ after ++ before' ++ after', isBlank c) ∧
    body.map Char.toLower = body'.map Char.toLower

/-- Up to the comments, if there are any, the lines have the same commas, and what stands between
them resembles each other. -/
def Restyled (line line' : List Char) : Prop :=
  ∃ code comment code' comment', line = code ++ comment ∧ line' = code' ++ comment' ∧
    ';' ∉ code ∧ ';' ∉ code' ∧ (∀ c ∈ comment.head?, c = ';') ∧ (∀ c ∈ comment'.head?, c = ';') ∧
    ∃ pieces pieces', Cuts code pieces ∧ Cuts code' pieces' ∧
      List.Forall₂ Resembles pieces pieces'

variable {before text after cs line line' : List Char}

theorem trim_append_left (h : ∀ c ∈ before, isBlank c) : trim (before ++ text) = trim text := by
  rw [trim, trimStart_append h, trim]

theorem trim_append_right (h : ∀ c ∈ after, isBlank c) : trim (text ++ after) = trim text := by
  have hstrips := strips_trim text
  obtain ⟨first, last, htext, hends⟩ := hstrips.parts
  refine strips_iff.1 ⟨⟨first, last ++ after, ?_, ?_⟩, hstrips.first, hstrips.last⟩
  · conv_lhs => rw [htext]
    rw [List.append_assoc]
  · rw [← List.append_assoc]
    exact List.forall_mem_append.2 ⟨hends, h⟩

theorem resembles_iff {p q : List Char} :
    Resembles p q ↔ (trim p).map Char.toLower = (trim q).map Char.toLower := by
  constructor
  · intro h
    obtain ⟨before, body, after, before', body', after', rfl, rfl, hblank, hbody⟩ := h
    simp only [List.append_assoc, List.forall_mem_append] at hblank
    obtain ⟨hbefore, hafter, hbefore', hafter'⟩ := hblank
    rw [trim_append_right hafter, trim_append_left hbefore, trim_append_right hafter',
      trim_append_left hbefore', ← trim_map_toLower, hbody, trim_map_toLower]
  · intro h
    obtain ⟨before, after, hp, hblank⟩ := (strips_trim p).parts
    obtain ⟨before', after', hq, hblank'⟩ := (strips_trim q).parts
    refine ⟨before, trim p, after, before', trim q, after', hp, hq, ?_, h⟩
    rw [List.append_assoc]
    exact List.forall_mem_append.2 ⟨hblank, hblank'⟩

theorem ne_comma_of_isBlank {c : Char} (h : isBlank c) : c ≠ ',' := by
  rintro rfl
  revert h
  decide

theorem splitOn_cons_of_ne {c : Char} (h : c ≠ ',') :
    (c :: cs).splitOn ',' = (cs.splitOn ',').modifyHead (c :: ·) := by
  rw [List.splitOn_cons_eq_if_modifyHead, if_neg (by simpa using h)]

theorem map_trim_splitOn_append_left (h : ∀ c ∈ before, isBlank c) :
    ((before ++ cs).splitOn ',').map trim = (cs.splitOn ',').map trim := by
  induction before with
  | nil => rfl
  | cons c before ih =>
    obtain ⟨hc, hmore⟩ := List.forall_mem_cons.1 h
    have htrim (piece : List Char) : trim (c :: piece) = trim piece := by
      simp [trim, trimStart, hc]
    rw [List.cons_append, splitOn_cons_of_ne (ne_comma_of_isBlank hc), ← ih hmore]
    cases (before ++ cs).splitOn ',' with
    | nil => rfl
    | cons piece pieces => simp [htrim]

theorem forall₂_splitOn_append_right (h : ∀ c ∈ after, isBlank c) :
    List.Forall₂ (fun p q => ∃ pad, (∀ c ∈ pad, isBlank c) ∧ p = q ++ pad)
      ((cs ++ after).splitOn ',') (cs.splitOn ',') := by
  induction cs with
  | nil =>
    have hcomma : ',' ∉ after := fun hmem => ne_comma_of_isBlank (h _ hmem) rfl
    have hcuts : Cuts after [after] := ⟨by simp, by simpa using hcomma, by simp⟩
    rw [List.nil_append, cuts_iff.1 hcuts, List.splitOn_nil]
    exact .cons ⟨after, h, rfl⟩ .nil
  | cons c cs ih =>
    have hnothing (p : List Char) : ∃ pad, (∀ c ∈ pad, isBlank c) ∧ p = p ++ pad :=
      ⟨[], by simp, by simp⟩
    rw [List.cons_append, List.splitOn_cons_eq_if_modifyHead, List.splitOn_cons_eq_if_modifyHead]
    generalize (cs ++ after).splitOn ',' = padded at ih
    generalize cs.splitOn ',' = pieces at ih
    split
    · exact .cons (hnothing []) ih
    · cases ih with
      | nil => exact .nil
      | cons hfirst hmore =>
        obtain ⟨pad, hpad, rfl⟩ := hfirst
        exact .cons ⟨pad, hpad, rfl⟩ hmore

theorem map_trim_splitOn_append_right (h : ∀ c ∈ after, isBlank c) :
    ((cs ++ after).splitOn ',').map trim = (cs.splitOn ',').map trim := by
  rw [← List.forall₂_eq_eq_eq, List.forall₂_map_left_iff, List.forall₂_map_right_iff]
  refine (forall₂_splitOn_append_right h).imp fun p q hpad => ?_
  obtain ⟨pad, hblank, rfl⟩ := hpad
  exact trim_append_right hblank

theorem map_trim_splitOn_trim (text : List Char) :
    ((trim text).splitOn ',').map trim = (text.splitOn ',').map trim := by
  obtain ⟨before, after, htext, hblank⟩ := (strips_trim text).parts
  obtain ⟨hbefore, hafter⟩ := List.forall_mem_append.1 hblank
  conv_rhs => rw [htext]
  rw [map_trim_splitOn_append_right hafter, map_trim_splitOn_append_left hbefore]

theorem trim_trim (text : List Char) : trim (trim text) = trim text := by
  have hstrips := strips_trim text
  exact strips_iff.1 ⟨⟨[], [], by simp, by simp⟩, hstrips.first, hstrips.last⟩

theorem map_trim_splitOn_eq_nil_iff (text : List Char) :
    (text.splitOn ',').map trim = [[]] ↔ trim text = [] := by
  rw [← map_trim_splitOn_trim]
  constructor
  · intro h
    obtain ⟨piece, hpiece, hnil⟩ := List.map_eq_singleton_iff.1 h
    have hsame : trim text = piece := by simpa using (cuts_iff.2 hpiece).joined
    rwa [← hsame, trim_trim] at hnil
  · intro h
    rw [h]
    rfl

def words (line : List Char) : List (List Char) := ((beforeComment line).splitOn ',').map trim

theorem tokens_eq (line : List Char) :
    tokens line = if words line = [[]] then [] else words line := by
  have hblank := map_trim_splitOn_eq_nil_iff (beforeComment line)
  unfold tokens words
  dsimp only
  by_cases hnil : trim (beforeComment line) = []
  · rw [if_pos (by simp [hnil]), if_pos (hblank.2 hnil)]
  · rw [if_neg (by simpa using hnil), if_neg (mt hblank.1 hnil), map_trim_splitOn_trim]

/-- Lines differ in style alone just where their words differ in case alone. -/
theorem restyled_iff :
    Restyled line line' ↔
      (words line).map (List.map Char.toLower) = (words line').map (List.map Char.toLower) := by
  have hresembles (pieces pieces' : List (List Char)) : List.Forall₂ Resembles pieces pieces' ↔
      (pieces.map trim).map (List.map Char.toLower) =
        (pieces'.map trim).map (List.map Char.toLower) := by
    rw [← List.forall₂_eq_eq_eq]
    simp only [List.forall₂_map_left_iff, List.forall₂_map_right_iff, ← resembles_iff]
  constructor
  · intro h
    obtain ⟨code, comment, code', comment', hline, hline', hcode, hcode', hcomment, hcomment',
      pieces, pieces', hcuts, hcuts', hpieces⟩ := h
    rw [words, words, beforeComment_eq_iff.2 ⟨comment, hline, hcode, hcomment⟩,
      beforeComment_eq_iff.2 ⟨comment', hline', hcode', hcomment'⟩, cuts_iff.1 hcuts,
      cuts_iff.1 hcuts']
    exact (hresembles _ _).1 hpieces
  · intro h
    obtain ⟨comment, hline, hcode, hcomment⟩ :=
      beforeComment_eq_iff.1 (rfl : _ = beforeComment line)
    obtain ⟨comment', hline', hcode', hcomment'⟩ :=
      beforeComment_eq_iff.1 (rfl : _ = beforeComment line')
    exact ⟨_, comment, _, comment', hline, hline', hcode, hcode', hcomment, hcomment', _, _,
      cuts_iff.2 rfl, cuts_iff.2 rfl, (hresembles _ _).2 h⟩

instance : Decidable (Restyled line line') := decidable_of_iff' _ restyled_iff

theorem Restyled.tokens (h : Restyled line line') :
    List.Forall₂ (fun s t => s.map Char.toLower = t.map Char.toLower) (tokens line)
      (tokens line') := by
  have hwords := restyled_iff.1 h
  have hnil (ps : List (List Char)) : ps = [[]] ↔ ps.map (List.map Char.toLower) = [[]] := by
    simp [List.map_eq_singleton_iff]
  have hblank : words line = [[]] ↔ words line' = [[]] := by rw [hnil, hwords, ← hnil]
  rw [tokens_eq, tokens_eq]
  by_cases hline : words line = [[]]
  · rw [if_pos hline, if_pos (hblank.1 hline)]
    exact .nil
  · rw [if_neg hline, if_neg (mt hblank.2 hline)]
    rwa [← List.forall₂_eq_eq_eq, List.forall₂_map_left_iff, List.forall₂_map_right_iff] at hwords

end Text

namespace Assembler

open Assembly (Error)

variable {reserve : Reserve} {st tw next : Assembler} {tokens : List String}

theorem forall₂_tokensOf {line line' : String} (h : Text.Restyled line.toList line'.toList) :
    List.Forall₂ (fun s t => Text.folded s = Text.folded t) (tokensOf line) (tokensOf line') := by
  rw [tokensOf, tokensOf, List.forall₂_map_left_iff, List.forall₂_map_right_iff]
  refine h.tokens.imp fun s t hsame => ?_
  rwa [Text.folded, Text.folded, String.toList_ofList, String.toList_ofList]

theorem isSome_of_rel {α β : Type} {r : α → β → Prop} {a : Option α} {b : Option β}
    (h : Option.Rel r a b) : a.isSome = b.isSome := by
  cases h <;> rfl

/-- The same blocks in the same array, and the same lines of the file's own but for the case of
their letters. -/
def restyled (reserve : Reserve) : Coupling reserve reserve where
  excused _ := False
  rel p q := p.blocks = q.blocks ∧ p.info.Alike q.info
  header h := isSome_of_rel h.2.header
  config h := isSome_of_rel h.2.config
  addHeader h hop := ⟨h.1, .some hop, h.2.config⟩
  addConfig h hop := ⟨h.1, h.2.header, .some hop⟩
  push {p q} b h := by
    obtain ⟨hblocks, hinfo⟩ := h
    rw [← hblocks]
    cases hpush : p.blocks.push reserve b with
    | ok x => exact .inl ⟨x, x, rfl, rfl, rfl, hinfo⟩
    | error e => exact .inr (.inl ⟨e, rfl, rfl⟩)

theorem LineStep.counted (h : LineStep reserve tokens st next) (hst : st.Settled)
    (hnone : st.failed = none) :
    (next.failed = none → next.line = st.line + 1) ∧
      ∀ e ∈ next.failed, e.line = if st.line < maxLine then some (st.line + 1) else none := by
  cases h with
  | ignored hfailed => simp [hnone] at hfailed
  | uncounted _ hfull =>
    refine ⟨nofun, fun e he => ?_⟩
    obtain rfl := Option.some.inj he
    rw [if_neg (Nat.not_lt.2 hfull)]
  | read _ _ hread =>
    have hkeeps := (readTokens_law hread).1
    refine ⟨fun _ => hkeeps.1, fun e he => ?_⟩
    rw [hkeeps.2.trans hnone] at he
    cases he
  | refused _ hroom hread =>
    refine ⟨nofun, fun e he => ?_⟩
    obtain rfl := Option.some.inj he
    rw [if_pos hroom]
    exact congrArg some (hst.changes_of_refused hread).1.keeps.1

theorem failed_eq {failed failed' : Option Error} {n : Option Nat}
    (h : failed.map Error.fault = failed'.map Error.fault) (hline : ∀ e ∈ failed, e.line = n)
    (hline' : ∀ e ∈ failed', e.line = n) : failed = failed' := by
  cases failed with
  | none => exact (Option.map_eq_none_iff.1 h.symm).symm
  | some e =>
    obtain ⟨e', rfl, hfault⟩ := Option.map_eq_some_iff.1 h.symm
    have hsame : e.line = e'.line := (hline e rfl).trans (hline' e' rfl).symm
    obtain ⟨line, fault⟩ := e
    obtain ⟨line', fault'⟩ := e'
    obtain rfl : line = line' := hsame
    obtain rfl : fault' = fault := hfault
    rfl

/-- Two assemblers that have read the same text in two styles. -/
structure SameText (reserve : Reserve) (st tw : Assembler) : Prop where
  left : st.Settled
  right : tw.Settled
  abreast : (restyled reserve).Abreast st tw
  failed : st.failed = tw.failed
  line : st.failed = none → st.line = tw.line

theorem SameText.inStep (h : SameText reserve st tw) : (restyled reserve).InStep st tw :=
  (h.abreast.unexcused (fun _ _ => not_false) fun _ _ => not_false).1

theorem SameText.readLine (h : SameText reserve st tw) {line line' : String}
    (hrestyled : Text.Restyled line.toList line'.toList) :
    SameText reserve (st.readLine reserve line) (tw.readLine reserve line') := by
  have hstep : LineStep reserve (tokensOf line) st (st.readLine reserve line) := h.left.line line
  have hstep' : LineStep reserve (tokensOf line') tw (tw.readLine reserve line') :=
    h.right.line line'
  cases hfailed : st.failed with
  | some e =>
    have hfailed' : tw.failed = some e := h.failed.symm.trans hfailed
    rw [readLine_of_failed (by simp [hfailed]), readLine_of_failed (by simp [hfailed'])]
    exact h
  | none =>
    have hfailed' : tw.failed = none := h.failed.symm.trans hfailed
    have hsame := h.line hfailed
    obtain ⟨hline, herror⟩ := hstep.counted h.left hfailed
    obtain ⟨hline', herror'⟩ := hstep'.counted h.right hfailed'
    have habreast : (restyled reserve).Abreast (st.readLine reserve line)
        (tw.readLine reserve line') :=
      h.abreast.readLine h.left h.right (fun _ => .inl (by rw [hsame])) (forall₂_tokensOf hrestyled)
    obtain ⟨-, hfault⟩ := habreast.unexcused (fun _ _ => not_false) fun _ _ => not_false
    have herrors : (st.readLine reserve line).failed = (tw.readLine reserve line').failed := by
      rw [← hsame] at herror'
      exact failed_eq hfault herror herror'
    refine ⟨hstep.settled h.left, hstep'.settled h.right, habreast, herrors, fun hnone => ?_⟩
    rw [hline hnone, hline' (herrors.symm.trans hnone), hsame]

theorem SameText.readLines (h : SameText reserve st tw) {lines lines' : List String}
    (hlines : List.Forall₂ (fun line line' => Text.Restyled line.toList line'.toList)
      lines lines') :
    SameText reserve (st.readLines reserve lines) (tw.readLines reserve lines') := by
  induction hlines generalizing st tw with
  | nil => exact h
  | cons hline _ ih => exact ih (h.readLine hline)

/-- Two texts that differ in style alone are read alike, line by line: the same error on the same
line or none, a block open or not, and the same blocks in the array. What is kept of the file's
own lines differs at most in the case of letters, and so do the finished programs. -/
theorem readLines_restyled (reserve : Reserve) (a : BlockArray Block) {lines lines' : List String}
    (hlines : List.Forall₂ (fun line line' => Text.Restyled line.toList line'.toList)
      lines lines') :
    let after (k : Nat) := (ofBlocks a).readLines reserve (lines.take k)
    let after' (k : Nat) := (ofBlocks a).readLines reserve (lines'.take k)
    (∀ k, (after k).failed = (after' k).failed ∧ (after k).isOpen = (after' k).isOpen ∧
      (after k).blocks = (after' k).blocks ∧ (after k).info.Alike (after' k).info) ∧
    ((∃ e e', (after lines.length).finish = .error e ∧ (after' lines'.length).finish = .error e' ∧
        e.fault = e'.fault) ∨
      ∃ p q, (after lines.length).finish = .ok p ∧ (after' lines'.length).finish = .ok q ∧
        p.blocks = q.blocks ∧ p.info.Alike q.info) := by
  intro after after'
  have hstart : SameText reserve (ofBlocks a) (ofBlocks a) :=
    ⟨settled_ofBlocks a, settled_ofBlocks a, .inStep ⟨.idle, rfl, .refl _, rfl, .none, .none⟩ rfl,
      rfl, fun _ => rfl⟩
  have hafter (k : Nat) : SameText reserve (after k) (after' k) :=
    hstart.readLines (List.forall₂_take k hlines)
  refine ⟨fun k => ?_, ?_⟩
  · have hstep := (hafter k).inStep
    exact ⟨(hafter k).failed, hstep.isOpen_eq, hstep.program.1, hstep.program.2⟩
  · have hend : SameText reserve (after lines.length) (after' lines'.length) := by
      rw [← hlines.length_eq]
      exact hafter _
    have hstep := hend.inStep
    rcases hstep.finish (congrArg _ hend.failed) with herror | ⟨hok, hok'⟩
    · exact .inl herror
    · exact .inr ⟨_, _, hok, hok', hstep.program.1, hstep.program.2⟩

/-- A block in two styles, beside a comment that only looks like one. In both texts the second
block is refused for its number. -/
theorem readLines_restyled_refused :
    let any : Reserve := fun _ => true
    let lines := ["INFO,HEADER,0x1F", "info, config ; begin, end", "Y, DWELL, 0xFF", "X, CW, 5 0"]
    let lines' := [" Info, Header , 0X1f ", "INFO ,CONFIG", "\ty,dwell,0Xff;", "x,cw,5 0"]
    let after (k : Nat) := (ofBlocks .empty).readLines any (lines.take k)
    let after' (k : Nat) := (ofBlocks .empty).readLines any (lines'.take k)
    List.Forall₂ (fun line line' => Text.Restyled line.toList line'.toList) lines lines' ∧
      ((after 3).blocks.length = 1 ∧ (after 3).blocks = (after' 3).blocks) ∧
      ((after 3).info ≠ (after' 3).info ∧ (after 3).info.Alike (after' 3).info) ∧
      (after 4).failed = some ⟨some 4, .malformedNumber⟩ ∧
      (after' 4).failed = some ⟨some 4, .malformedNumber⟩ := by
  intro any lines lines' after after'
  have hlines : List.Forall₂ (fun line line' => Text.Restyled line.toList line'.toList) lines
      lines' := by
    refine .cons (by decide +kernel) (.cons (by decide +kernel) ?_)
    exact .cons (by decide +kernel) (.cons (by decide +kernel) .nil)
  obtain ⟨halike, -⟩ := readLines_restyled any .empty hlines
  obtain ⟨-, -, hblocks, hinfo⟩ := halike 3
  have hfailed : (after 4).failed = some ⟨some 4, .malformedNumber⟩ := by decide +kernel
  exact ⟨hlines, ⟨by decide +kernel, hblocks⟩, ⟨by decide +kernel, hinfo⟩, hfailed,
    (halike 4).1.symm.trans hfailed⟩

end Assembler

end PulseMill
