import PulseMill.Proofs.BlockStore
import PulseMill.Proofs.Meaning
import PulseMill.Proofs.Spelling
set_option autoImplicit false

namespace PulseMill

def lexemesOf (rows : List (List String)) : List Lexeme :=
  rows.flatMap fun row => row.map .word ++ [.lineEnd]

namespace Assembler

variable {reserve : Reserve} {st mid next : Assembler}

def Keeps (st next : Assembler) : Prop := next.line = st.line ∧ next.failed = st.failed

theorem Keeps.trans (h : st.Keeps mid) (k : mid.Keeps next) : st.Keeps next :=
  ⟨k.1.trans h.1, k.2.trans h.2⟩

theorem closeBlock_keeps (h : st.closeBlock reserve = .ok next) : st.Keeps next := by
  obtain ⟨block, blocks, -, -, rfl⟩ := closeBlock_eq_ok.1 h
  exact ⟨rfl, rfl⟩

theorem openBlock_keeps {mode : Mode} (h : st.openBlock mode = .ok next) : st.Keeps next := by
  obtain ⟨-, -, rfl⟩ := openBlock_eq_ok.1 h
  exact ⟨rfl, rfl⟩

theorem startTuple_keeps {token : String} (h : st.startTuple token = .ok next) :
    st.Keeps next := by
  rcases startTuple_eq_ok.1 h with ⟨-, -, rfl⟩ | ⟨-, mid, hopens, -, rfl⟩
  · exact ⟨rfl, rfl⟩
  · rcases hopens with ⟨-, rfl⟩ | hopen
    · exact ⟨rfl, rfl⟩
    · have hkeeps := openBlock_keeps hopen
      exact hkeeps

theorem setMnemonic_keeps {axis : Axis} {token : String}
    (h : st.setMnemonic axis token = .ok next) : st.Keeps next := by
  obtain ⟨m, -, -, rfl⟩ := setMnemonic_eq_ok.1 h
  exact ⟨rfl, rfl⟩

theorem complete_keeps {op : Opcode} (h : st.complete op = .ok next) : st.Keeps next := by
  rcases complete_eq_ok.1 h with ⟨-, h⟩ | ⟨-, rfl⟩
  · obtain ⟨w, info, -, -, rfl⟩ := setInfo_eq_ok.1 h
    exact ⟨rfl, rfl⟩
  · exact ⟨rfl, rfl⟩

theorem addArgument_keeps {axis : Axis} {m token : String} {args : List (Option String)}
    (h : st.addArgument axis m args token = .ok next) : st.Keeps next := by
  simp only [addArgument] at h
  generalize args ++ [if token.isEmpty then none else some token] = args at h
  split at h
  · cases h
    exact ⟨rfl, rfl⟩
  · exact complete_keeps h

theorem readToken_keeps {token : String} (h : st.readToken reserve token = .ok next) :
    st.Keeps next := by
  unfold readToken at h
  split at h
  · exact openBlock_keeps h
  · exact closeBlock_keeps (endBlock_eq_ok.1 h).2
  · split at h
    · cases h
      exact ⟨rfl, rfl⟩
    · exact startTuple_keeps h
  · cases h
  · exact setMnemonic_keeps h
  · split at h
    · cases h
    · split at h
      · cases h
      · obtain ⟨mid, hmid, hend⟩ := bind_eq_ok.1 h
        exact (complete_keeps hmid).trans (closeBlock_keeps (endBlock_eq_ok.1 hend).2)
      · exact addArgument_keeps h

theorem endLine_law (h : st.endLine reserve = .ok next) :
    st.Keeps next ∧ next.progress = .idle ∧ next.mode ≠ .implicit := by
  have hafter {mid : Assembler} (hidle : mid.progress = .idle)
      (h : (if mid.mode = .implicit then mid.closeBlock reserve else .ok mid) = .ok next) :
      mid.Keeps next ∧ next.progress = .idle ∧ next.mode ≠ .implicit := by
    split at h
    case isTrue =>
      refine ⟨closeBlock_keeps h, closeBlock_idle h, ?_⟩
      obtain ⟨block, blocks, -, -, rfl⟩ := closeBlock_eq_ok.1 h
      simp [discard]
    case isFalse hmode =>
      cases h
      exact ⟨⟨rfl, rfl⟩, hidle, hmode⟩
  cases hprogress : st.progress with
  | idle =>
    simp only [endLine, hprogress] at h
    exact hafter hprogress h
  | axis axis =>
    simp only [endLine, hprogress] at h
    cases h
  | tuple axis m args =>
    simp only [endLine, hprogress] at h
    split at h
    · cases h
    · obtain ⟨mid, hmid, h⟩ := bind_eq_ok.1 h
      obtain ⟨hkeeps, hnext⟩ := hafter (complete_idle hmid) h
      exact ⟨(complete_keeps hmid).trans hkeeps, hnext⟩

theorem readTokens_law {tokens : List String} (h : st.readTokens reserve tokens = .ok next) :
    st.Keeps next ∧ next.progress = .idle ∧ next.mode ≠ .implicit := by
  induction tokens generalizing st with
  | nil => exact endLine_law h
  | cons token tokens ih =>
    obtain ⟨mid, hmid, h⟩ := bind_eq_ok.1 h
    obtain ⟨hkeeps, hnext⟩ := ih h
    exact ⟨(readToken_keeps hmid).trans hkeeps, hnext⟩

theorem feedAll_append {ls more : List Lexeme} :
    st.feedAll reserve (ls ++ more) = .ok next ↔
      ∃ mid, st.feedAll reserve ls = .ok mid ∧ mid.feedAll reserve more = .ok next := by
  induction ls generalizing st with
  | nil => simp [feedAll]
  | cons l ls ih =>
    simp only [List.cons_append, feedAll_cons, ih]
    constructor
    · intro h
      obtain ⟨first, hfirst, mid, hls, hmore⟩ := h
      exact ⟨mid, ⟨first, hfirst, hls⟩, hmore⟩
    · intro h
      obtain ⟨mid, ⟨first, hfirst, hls⟩, hmore⟩ := h
      exact ⟨first, hfirst, mid, hls, hmore⟩

theorem feedAll_row {tokens : List String} :
    st.feedAll reserve (tokens.map .word ++ [.lineEnd]) = .ok next ↔
      ∃ mid, st.readTokens reserve tokens = .ok mid ∧ mid.advance = next := by
  induction tokens generalizing st with
  | nil =>
    simp only [List.map_nil, List.nil_append, feed, feedAll, readTokens, bind_eq_ok, pure,
      Except.pure, Except.ok.injEq, exists_eq_right]
  | cons token tokens ih =>
    simp only [List.map_cons, List.cons_append, feedAll_cons, feed, readTokens, bind_eq_ok, ih]
    constructor
    · intro h
      obtain ⟨first, hfirst, mid, hmid, rfl⟩ := h
      exact ⟨mid, ⟨first, hfirst, hmid⟩, rfl⟩
    · intro h
      obtain ⟨mid, ⟨first, hfirst, hmid⟩, rfl⟩ := h
      exact ⟨first, hfirst, mid, hmid, rfl⟩

structure Ready (st : Assembler) : Prop where
  progress : st.progress = .idle
  mode : st.mode ≠ .implicit
  failed : st.failed = none

theorem readLine_law (hst : st.Ready) (line : String) :
    (st.readLine reserve line).failed = none ∧ (st.readLine reserve line).advance = next ↔
      st.line < maxLine ∧ st.advance.feedAll reserve
        ((tokensOf line).map .word ++ [.lineEnd]) = .ok next := by
  have hnot : ¬ st.failed.isSome := by simp [hst.failed]
  by_cases hline : st.line ≥ maxLine
  · simp only [readLine, if_neg hnot, if_pos hline]
    exact iff_of_false (by simp) (by omega)
  · have hless : st.line < maxLine := by omega
    simp only [readLine, if_neg hnot, if_neg hline, feedAll_row, hless, true_and]
    cases tokensOf line with
    | nil =>
      have hend : st.advance.readTokens reserve [] = .ok st.advance := by
        simp only [readTokens, endLine, advance, hst.progress]
        exact if_neg hst.mode
      simp only [hend, Except.ok.injEq, exists_eq_left']
      exact and_iff_right hst.failed
    | cons token tokens =>
      cases hread : st.advance.readTokens reserve (token :: tokens) with
      | error e =>
        simp only [advance] at hread
        simp [hread]
      | ok mid =>
        have hfailed : mid.failed = none := (readTokens_law hread).1.2.trans hst.failed
        simp only [advance] at hread
        simp [hread, hfailed]

theorem Ready.readLine (hst : st.Ready) {line : String}
    (h : (st.readLine reserve line).failed = none) :
    (st.readLine reserve line).Ready ∧ (st.readLine reserve line).line = st.line + 1 := by
  obtain ⟨-, hfeed⟩ := (readLine_law hst line).1 ⟨h, rfl⟩
  obtain ⟨mid, hmid, hsame⟩ := feedAll_row.1 hfeed
  obtain ⟨hkeeps, hidle, hmode⟩ := readTokens_law hmid
  refine ⟨⟨?_, ?_, h⟩, ?_⟩
  · exact (congrArg Assembler.progress hsame).symm.trans hidle
  · exact fun heq => hmode ((congrArg Assembler.mode hsame).trans heq)
  · have hcount : mid.line + 1 = (st.readLine reserve line).line + 1 :=
      congrArg Assembler.line hsame
    have hline : mid.line = st.line + 1 := hkeeps.1
    omega

theorem failed_readLines (h : st.failed.isSome) (lines : List String) :
    st.readLines reserve lines = st := by
  induction lines with
  | nil => rfl
  | cons line lines ih => rw [readLines, List.foldl_cons, readLine_of_failed h]; exact ih

/-- Line by line the assembler does the same as on the text as a whole. -/
theorem readLines_law (hst : st.Ready) (hline : st.line ≤ maxLine) (lines : List String) :
    (st.readLines reserve lines).failed = none ∧ (st.readLines reserve lines).advance = next ↔
      st.line + lines.length ≤ maxLine ∧
        st.advance.feedAll reserve (lexemesOf (lines.map tokensOf)) = .ok next := by
  induction lines generalizing st with
  | nil =>
    have hnil : st.readLines reserve [] = st := rfl
    have hfeed : st.advance.feedAll reserve (lexemesOf ([].map tokensOf)) = .ok st.advance := rfl
    rw [hnil, hfeed, Except.ok.injEq]
    exact and_congr_left fun _ => iff_of_true hst.failed hline
  | cons line lines ih =>
    have hcons : st.readLines reserve (line :: lines) =
        (st.readLine reserve line).readLines reserve lines := rfl
    have hlexemes : lexemesOf ((line :: lines).map tokensOf) =
        (tokensOf line).map .word ++ [.lineEnd] ++ lexemesOf (lines.map tokensOf) := by
      simp [lexemesOf]
    rw [hcons, hlexemes, feedAll_append, List.length_cons]
    by_cases hfailed : (st.readLine reserve line).failed = none
    · obtain ⟨hless, hrow⟩ := (readLine_law hst line).1 ⟨hfailed, rfl⟩
      obtain ⟨hready, hcount⟩ := hst.readLine hfailed
      rw [ih hready (by omega), hcount, hrow]
      simp only [Except.ok.injEq, exists_eq_left']
      refine and_congr_left fun _ => ?_
      omega
    · have hsome : (st.readLine reserve line).failed.isSome := Option.ne_none_iff_isSome.1 hfailed
      rw [failed_readLines hsome]
      refine iff_of_false (fun h => hfailed h.1) ?_
      intro hgiven
      obtain ⟨hlength, mid, hrow, -⟩ := hgiven
      exact hfailed ((readLine_law hst line).2 ⟨by omega, hrow⟩).1

theorem finish_eq_ok {p : Program} :
    st.finish = .ok p ↔ st.failed = none ∧ st.mode = .closed ∧ st.progress = .idle ∧
      st.info.isComplete ∧ st.program = p := by
  cases hfailed : st.failed with
  | some e => simp [finish, hfailed]
  | none =>
    by_cases hmode : st.mode = .closed
    · by_cases hidle : st.progress = .idle
      · cases hheader : st.info.header with
        | none => simp [finish, hfailed, isOpen, hmode, hidle, hheader, Info.isComplete]
        | some header =>
          cases hconfig : st.info.config with
          | none => simp [finish, hfailed, isOpen, hmode, hidle, hheader, hconfig, Info.isComplete]
          | some config =>
            simp [finish, hfailed, isOpen, hmode, hidle, hheader, hconfig, Info.isComplete, program]
      · simp [finish, hfailed, isOpen, hmode, hidle]
    · simp [finish, hfailed, isOpen, hmode]

theorem finish_readLines {a : BlockArray Block} {p : Program} (lines : List String) :
    ((ofBlocks a).readLines reserve lines).finish = .ok p ↔
      lines.length ≤ maxLine ∧ ∃ ps ss blocks, Reads (lexemesOf (lines.map tokensOf)) ps ∧
        Sections ss ps ∧ DenotesProgram ss p.info blocks ∧
        a.extend reserve blocks = .ok p.blocks := by
  have hready : (ofBlocks a).Ready := ⟨rfl, nofun, rfl⟩
  have hprogram : (ofBlocks a).advance.program = ⟨{}, a⟩ := rfl
  constructor
  · intro h
    obtain ⟨hfailed, hmode, hidle, hcomplete, hp⟩ := finish_eq_ok.1 h
    obtain ⟨hlength, hfeed⟩ := (readLines_law hready (Nat.zero_le _) lines).1 ⟨hfailed, rfl⟩
    obtain ⟨ps, hreads, htakes⟩ := (feedAll_iff_takesAll rfl).1 ⟨hfeed, hidle⟩
    have hreaches : Reaches reserve (ofBlocks a).advance ps p := ⟨_, htakes, hmode, hp⟩
    obtain ⟨ss, hss, hgrows⟩ := ((agrees ps).closed _ rfl).1 hreaches
    have hinfo : p.info.isComplete := by
      rw [← hp]
      exact hcomplete
    rw [hprogram] at hgrows
    obtain ⟨blocks, hdenotes, hextend⟩ := (growsAll_iff hss.proper).1 ⟨hgrows, hinfo⟩
    have hless : lines.length ≤ maxLine := by
      have hzero : (ofBlocks a).line = 0 := rfl
      omega
    exact ⟨hless, ps, ss, blocks, hreads, hss, hdenotes, hextend⟩
  · intro hgiven
    obtain ⟨hless, ps, ss, blocks, hreads, hss, hdenotes, hextend⟩ := hgiven
    obtain ⟨hgrows, hinfo⟩ := (growsAll_iff hss.proper).2 ⟨blocks, hdenotes, hextend⟩
    rw [← hprogram] at hgrows
    obtain ⟨next, htakes, hmode, hp⟩ := ((agrees ps).closed _ rfl).2 ⟨ss, hss, hgrows⟩
    obtain ⟨hfeed, hidle⟩ := (feedAll_iff_takesAll rfl).2 ⟨ps, hreads, htakes⟩
    have hlength : (ofBlocks a).line + lines.length ≤ maxLine := by
      have hzero : (ofBlocks a).line = 0 := rfl
      omega
    obtain ⟨hfailed, rfl⟩ := (readLines_law hready (Nat.zero_le _) lines).2 ⟨hlength, hfeed⟩
    refine finish_eq_ok.2 ⟨hfailed, hmode, hidle, ?_, hp⟩
    rw [← hp] at hinfo
    exact hinfo

end Assembler

/-- An assembled program, with its blocks in an array that they have been pushed to one by one. -/
theorem assemble_eq_ok_filled {reserve : Reserve} {source : String} {p : Program} :
    assemble reserve source = .ok p ↔
      (sourceLines source).length ≤ Assembler.maxLine ∧ ∃ ps ss blocks,
        Reads (lexemesOf ((sourceLines source).map Assembler.tokensOf)) ps ∧ Sections ss ps ∧
        DenotesProgram ss p.info blocks ∧ reserve.Covers blocks.length ∧
        p.blocks = .filled blocks := by
  cases hreserve : reserve 16 with
  | false =>
    have hnone (n : Nat) : ¬ reserve.Covers n := fun h => by
      rw [BlockArray.covers_zero.1 (BlockArray.covers_mono h (Nat.zero_le _))] at hreserve
      cases hreserve
    simp [assemble, BlockArray.withCapacity, hreserve, hnone, Except.mapError, bind, Except.bind]
  | true =>
    have hzero : reserve.Covers ([] : List Block).length := BlockArray.covers_zero.2 hreserve
    have hextend {blocks : List Block} :
        (BlockArray.filled []).extend reserve blocks = .ok p.blocks ↔
          reserve.Covers blocks.length ∧ p.blocks = .filled blocks := by
      rw [BlockArray.extend_filled hzero, List.length_nil, Nat.zero_add, List.nil_append, eq_comm]
    have hcall : assemble reserve source =
        ((Assembler.ofBlocks (.filled [])).readLines reserve (sourceLines source)).finish := by
      rw [BlockArray.filled_nil, assemble, BlockArray.withCapacity_default hreserve]
      rfl
    simp only [hcall, Assembler.finish_readLines, hextend]

/-- The lines are a text of the block language, and this is what it means. -/
def DenotesText (lines : List String) (info : Info) (blocks : List Block) : Prop :=
  ∃ rows ps ss,
    List.Forall₂ (fun line row => Text.Spells line.toList (row.map String.toList)) lines rows ∧
    Reads (lexemesOf rows) ps ∧ Sections ss ps ∧ DenotesProgram ss info blocks

theorem forall₂_spells_iff {lines : List String} {rows : List (List String)} :
    List.Forall₂ (fun line row => Text.Spells line.toList (row.map String.toList)) lines rows ↔
      lines.map Assembler.tokensOf = rows := by
  constructor
  · intro h
    induction h with
    | nil => rfl
    | cons hline _ ih => rw [List.map_cons, Assembler.tokensOf_eq_iff.2 hline, ih]
  · intro hgiven
    obtain rfl := hgiven
    induction lines with
    | nil => exact .nil
    | cons line lines ih => exact .cons (Assembler.tokensOf_eq_iff.1 rfl) ih

/-- A source text is assembled if and only if it is a text of the block language, not too long
for its lines to be counted, and there is memory for its blocks. The program is what the text
means, with the cursor of its array at the first block. -/
theorem assemble_eq_ok_iff (reserve : Reserve) (source : String) (p : Program) :
    assemble reserve source = .ok p ↔
      (sourceLines source).length < UInt32.size ∧
      DenotesText (sourceLines source) p.info p.blocks.toList ∧
      reserve.Covers p.blocks.length ∧ p.blocks = .filled p.blocks.toList := by
  have hcall : assemble reserve source =
      ((BlockArray.withCapacity reserve 16 16).mapError fun e => ⟨none, .blockArray e⟩) >>=
        fun blocks =>
          ((Assembler.ofBlocks blocks).readLines reserve (sourceLines source)).finish := rfl
  have hlines : (sourceLines source).length < UInt32.size ↔
      (sourceLines source).length ≤ Assembler.maxLine := by
    simp only [Assembler.maxLine, UInt32.size]
    omega
  rw [hlines]
  constructor
  · intro h
    cases hreserve : reserve 16 with
    | false =>
      simp [hcall, BlockArray.withCapacity, hreserve, Except.mapError, bind, Except.bind] at h
    | true =>
      have hzero : reserve.Covers ([] : List Block).length := BlockArray.covers_zero.2 hreserve
      rw [hcall, BlockArray.withCapacity_default hreserve, ← BlockArray.filled_nil] at h
      obtain ⟨hlength, ps, ss, blocks, hreads, hss, hdenotes, hextend⟩ :=
        (Assembler.finish_readLines _).1 h
      obtain ⟨hcovers, hblocks⟩ := (BlockArray.extend_filled hzero).1 hextend
      have hlist : p.blocks.toList = blocks := by rw [← hblocks]; rfl
      refine ⟨hlength, ?_, ?_, ?_⟩
      · rw [hlist]
        exact ⟨_, ps, ss, forall₂_spells_iff.2 rfl, hreads, hss, hdenotes⟩
      · have hcount : p.blocks.length = blocks.length := by
          rw [← hlist]
          simp [BlockArray.length, BlockArray.toList]
        rw [hcount]
        simpa using hcovers
      · rw [hlist, ← hblocks]
        rfl
  · intro hgiven
    obtain ⟨hlength, ⟨rows, ps, ss, hspells, hreads, hss, hdenotes⟩, hcovers, hblocks⟩ := hgiven
    obtain rfl := forall₂_spells_iff.1 hspells
    have hreserve : reserve 16 = true :=
      BlockArray.covers_zero.1 (BlockArray.covers_mono hcovers (Nat.zero_le _))
    have hzero : reserve.Covers ([] : List Block).length := BlockArray.covers_zero.2 hreserve
    rw [hcall, BlockArray.withCapacity_default hreserve, ← BlockArray.filled_nil]
    refine (Assembler.finish_readLines _).2 ⟨hlength, ps, ss, _, hreads, hss, hdenotes, ?_⟩
    refine (BlockArray.extend_filled hzero).2 ⟨?_, hblocks.symm⟩
    simpa [BlockArray.length, BlockArray.toList] using hcovers

end PulseMill
