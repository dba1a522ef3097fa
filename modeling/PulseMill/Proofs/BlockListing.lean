import PulseMill.Proofs.BlockSpelling
import PulseMill.Proofs.ListedProgram
set_option autoImplicit false

namespace PulseMill

def AxisWords.masked (w : AxisWords) : AxisWords := { w with instruction := w.instruction &&& 0xF }

def Block.masked (b : Block) : Block :=
  { x := b.x.masked, y := b.y.masked, z := b.z.masked, a := b.a.masked }

variable {b : Block} {w : AxisWords} {axis : Axis} {op : Opcode}

theorem Block.axes_masked (b : Block) :
    b.masked.axes = b.axes.map fun t => (t.1, t.2.masked) := rfl

theorem Instruction.ofWord_law (word : UInt32) :
    (∃ i, ofWord word = .ok i ∧ i.code = word &&& 0xF ∧ word &&& 0xF ≤ 4) ∨
      4 < word &&& 0xF ∧ ofWord word = .error ⟨word⟩ := by
  have hlow {i : Instruction} (h : ofWord word = .ok i) :
      i.code = word &&& 0xF ∧ word &&& 0xF ≤ 4 := by
    have hcode := code_of_ofWord h
    refine ⟨hcode, ?_⟩
    rw [← hcode]
    cases i <;> decide
  cases h : ofWord word with
  | ok i => exact .inl ⟨i, rfl, hlow h⟩
  | error e =>
    unfold ofWord at h
    split at h <;> cases h
    case h_6 h0 h1 h2 h3 h4 =>
      refine .inr ⟨UInt32.lt_iff_toNat_lt.2 ?_, rfl⟩
      simp only [imp_false] at h0 h1 h2 h3 h4
      have hfour : (4 : UInt32).toNat = 4 := rfl
      omega

def Listing.row (axis : Axis) (w : AxisWords) (m : Mnemonic) : List String :=
  [axis.name, m.name, w.rate.toNat.repr, w.count.toNat.repr, w.width.toNat.repr]

theorem Listing.exists_tuple (h : w.masked.instruction ≤ 4) :
    ∃ m : Mnemonic, m.instruction.code = w.masked.instruction ∧
      ∀ axis, tuple axis w = .ok (row axis w m) ∧ tuple axis w.masked = .ok (row axis w m) := by
  rcases Instruction.ofWord_law w.instruction with ⟨i, hi, hcode, -⟩ | ⟨hgreat, -⟩
  · have hmasked : Instruction.ofWord w.masked.instruction = .ok i := by
      rw [← Instruction.ofWord_code i, hcode]
      rfl
    refine ⟨.ofInstruction w.hasPulses i, ?_, fun axis => ⟨?_, ?_⟩⟩
    · rw [Mnemonic.instruction_ofInstruction]
      exact hcode
    · rw [tuple, AxisWords.mnemonic, hi]
      rfl
    · rw [tuple, AxisWords.mnemonic, hmasked]
      rfl
  · exact absurd h (UInt32.not_le.2 hgreat)

theorem Listing.tuple_eq_error (h : 4 < w.masked.instruction) :
    tuple axis w = .error ⟨w.instruction⟩ := by
  rcases Instruction.ofWord_law w.instruction with ⟨i, -, -, hless⟩ | ⟨-, herror⟩
  · exact absurd hless (UInt32.not_le.2 h)
  · rw [tuple, AxisWords.mnemonic, herror]
    rfl

theorem mapM_eq_error_iff {ε α β : Type} {f : α → Except ε β} {bad : α → Bool} {fault : α → ε}
    {l : List α} {e : ε} (hbad : ∀ a, bad a = true → f a = .error (fault a))
    (hgood : ∀ a, bad a = false → ∃ b, f a = .ok b) :
    l.mapM f = .error e ↔ ∃ a, l.find? bad = some a ∧ e = fault a := by
  induction l with
  | nil => simp [pure, Except.pure]
  | cons a l ih =>
    rw [List.mapM_cons]
    cases ha : bad a with
    | true =>
      rw [hbad a ha, List.find?_cons_of_pos ha]
      simp [bind, Except.bind, eq_comm]
    | false =>
      obtain ⟨b, hb⟩ := hgood a ha
      rw [hb, List.find?_cons_of_neg (by simp [ha]), ← ih]
      cases l.mapM f <;> simp [bind, Except.bind, pure, Except.pure]

theorem Listing.block_eq_error_iff {e : InvalidCode} :
    block b = .error e ↔
      ∃ t, b.axes.find? (fun t => 4 < t.2.masked.instruction) = some t ∧ e = ⟨t.2.instruction⟩ := by
  have htuples : (b.axes.mapM fun t => tuple t.1 t.2) = .error e ↔
      ∃ t, b.axes.find? (fun t => 4 < t.2.masked.instruction) = some t ∧ e = ⟨t.2.instruction⟩ := by
    refine mapM_eq_error_iff (fun t ht => tuple_eq_error (by simpa using ht))
      fun t ht => ?_
    obtain ⟨m, -, hrow⟩ := exists_tuple (w := t.2) (by simpa using ht)
    exact ⟨_, (hrow t.1).1⟩
  rw [← htuples, block, blockTokens]
  cases b.axes.mapM fun t => tuple t.1 t.2 <;>
    simp [bind, Except.bind, Except.map, pure, Except.pure]

theorem Listing.exists_text_iff :
    (∃ text, block b = .ok text) ↔ ∀ t ∈ b.axes, t.2.masked.instruction ≤ 4 := by
  refine ⟨?_, fun hle => ?_⟩
  · rintro ⟨text, htext⟩
    cases hfind : b.axes.find? (fun t => 4 < t.2.masked.instruction) with
    | none => simpa using List.find?_eq_none.1 hfind
    | some t =>
      rw [block_eq_error_iff.2 ⟨t, hfind, rfl⟩] at htext
      cases htext
  · cases htext : block b with
    | ok text => exact ⟨text, rfl⟩
    | error e =>
      obtain ⟨t, hfind, -⟩ := block_eq_error_iff.1 htext
      have hcode : 4 < t.2.masked.instruction := by simpa using List.find?_some hfind
      exact absurd (hle t (List.mem_of_find?_eq_some hfind)) (UInt32.not_le.2 hcode)

structure Motion.Lists (u : Motion) (axis : Axis) (w : AxisWords) : Prop where
  listed : Listing.tuple axis w = .ok u.words
  proper : u.Proper
  axis : u.op.axis = axis
  means : u.op.Means w.masked

theorem Opcode.Written.exists_motion (h : op.Written) (hmoves : op.Moves) :
    ∃ u : Motion, u.Proper ∧ u.words = op.words ∧ u.op = op := by
  obtain ⟨axis, mnemonic, arg0, arg1, arg2⟩ := op
  obtain ⟨s, rfl, hs⟩ := h.mnemonic
  obtain ⟨p, rfl, hp⟩ := h.args arg0 (by simp [Opcode.args])
  obtain ⟨q, rfl, hq⟩ := h.args arg1 (by simp [Opcode.args])
  obtain ⟨r, rfl, hr⟩ := h.args arg2 (by simp [Opcode.args])
  have haxis : Axis.ofSymbol axis.name = axis := Axis.ofSymbol_name h.axis
  obtain ⟨hmotion, m, hm, hpseudo⟩ := hmoves
  have hproper : Motion.Proper ⟨axis.name, s, p, q, r⟩ :=
    ⟨haxis.symm ▸ hmotion, ⟨m, Opcode.names_iff.1 hm, hpseudo⟩,
      by simp [Motion.args, hp.plain, hq.plain, hr.plain]⟩
  refine ⟨_, hproper, rfl, ?_⟩
  simp only [Motion.op, Motion.args, List.map_cons, List.map_nil, argument?_of_isSymbol hp,
    argument?_of_isSymbol hq, argument?_of_isSymbol hr, haxis]
  rfl

theorem le_two_iff {code : UInt32} : code ≤ 2 ↔ code = 0 ∨ code = 1 ∨ code = 2 := by
  simp only [UInt32.le_iff_toNat_le, ← UInt32.toNat_inj]
  exact Nat.le_succ_iff.trans (by simp; omega)

theorem exists_motion (haxis : axis.isMotion) (h : w.masked.instruction ≤ 2) :
    ∃ u : Motion, u.Lists axis w := by
  obtain ⟨op, hop⟩ := exists_lists haxis (le_two_iff.1 h)
  obtain ⟨u, hproper, hwords, rfl⟩ := hop.written.exists_motion hop.moves
  obtain ⟨m, -, hrow⟩ := Listing.exists_tuple (w := w) (UInt32.le_trans h (by decide))
  refine ⟨u, ?_, hproper, hop.axis, hop.means⟩
  rw [(hrow axis).1, ← (hrow axis).2, hop.listed, hwords]

theorem Listing.isWord_of_mem_row {m : Mnemonic} (haxis : axis.isMotion) :
    ∀ token ∈ row axis w m, IsWord token := by
  have hname := Axis.isWord_name (Axis.mem_nameable haxis)
  simp [row, hname, (isSymbol_name m).word, isWord_repr]

structure Listing.Rows (b : Block) (row : Axis × AxisWords → List String) (text : String) :
    Prop where
  listed : ∀ t ∈ b.axes, tuple t.1 t.2 = .ok (row t)
  code_le : ∀ t ∈ b.axes, t.2.masked.instruction ≤ 4
  tokens : Assembler.tokensOf text = "begin" :: (b.axes.map row).flatten ++ ["end"]

theorem Listing.Rows.tokens_ne_nil {row : Axis × AxisWords → List String} {text : String}
    (h : Rows b row text) : Assembler.tokensOf text ≠ [] := by
  rw [h.tokens]
  exact List.cons_ne_nil _ _

theorem Listing.exists_rows {text : String} (h : block b = .ok text) :
    ∃ row, Rows b row text := by
  have hle : ∀ t ∈ b.axes, t.2.masked.instruction ≤ 4 := exists_text_iff.1 ⟨text, h⟩
  have hrows : ∀ t ∈ b.axes, ∃ words, tuple t.1 t.2 = .ok words ∧
      ∀ token ∈ words, IsWord token := fun t ht => by
    obtain ⟨m, -, hm⟩ := exists_tuple (hle t ht)
    exact ⟨row t.1 t.2 m, (hm t.1).1, isWord_of_mem_row (isMotion_of_mem_axes ht)⟩
  choose! words hwords using hrows
  have htuples : (b.axes.mapM fun t => tuple t.1 t.2) = .ok (b.axes.map words) :=
    mapM_eq_ok fun t ht => (hwords t ht).1
  have htext : text = line ("begin" :: (b.axes.map words).flatten ++ ["end"]) := by
    rw [block, blockTokens, htuples] at h
    exact (Except.ok.inj h).symm
  refine ⟨words, fun t ht => (hwords t ht).1, hle, ?_⟩
  rw [htext, IsRow.tokensOf_line]
  exact isRow_enclosed (List.forall_mem_map.2 fun t ht => (hwords t ht).2)

namespace Assembler

open Assembly (compileBlock)

variable {reserve : Reserve} {st : Assembler} {us : List Motion} {more : List String}
  {before after : List (Axis × AxisWords)} {u : Axis × AxisWords → Motion}
  {row : Axis × AxisWords → List String} {text : String}

theorem withSlots_self (hst : st.progress = .idle) : st.withSlots st.slots = st := by
  rw [withSlots, ← hst]

theorem readTokens_words (hst : st.progress = .idle) (hopen : st.mode ≠ .closed)
    (hfits : Fits st.slots us) :
    st.readTokens reserve ((us.map Motion.words).flatten ++ more) =
      (st.withSlots (st.slots.fill (us.map Motion.op))).readTokens reserve more := by
  induction us generalizing st with
  | nil =>
    have hsame : st.withSlots (st.slots.fill []) = st := withSlots_self hst
    rw [List.map_nil, List.map_nil, List.flatten_nil, List.nil_append, hsame]
  | cons u us ih =>
    obtain ⟨hu, hfree⟩ := hfits.first
    have hrest : (st.withSlots (st.slots.set u.op.axis u.op)).readTokens reserve
        ((us.map Motion.words).flatten ++ more) = _ := ih rfl hopen hfits.rest
    rw [List.map_cons, List.flatten_cons, List.append_assoc,
      readTokens_whole hst (.inl ⟨hopen, rfl⟩) hfree hu, hrest]
    rfl

theorem readTokens_pseudo {axis : Axis} {m : Mnemonic} (hst : st.progress = .idle)
    (hopen : st.mode ≠ .closed) (haxis : axis.isMotion) (hfree : st.slots.holds axis = false)
    (hm : m.isPseudo) :
    st.readTokens reserve (axis.name :: m.name :: more) =
      ({ st with progress := .axis axis } : Assembler).refuse .pseudoInstructionInBlock := by
  have hname : Axis.ofSymbol axis.name = axis := Axis.ofSymbol_name (Axis.mem_nameable haxis)
  have hselect : st.readToken reserve axis.name = .ok { st with progress := .axis axis } := by
    have hread : st.readToken reserve axis.name =
        .ok { st with progress := .axis (Axis.ofSymbol axis.name) } :=
      readToken_axis hst (.inl ⟨hopen, rfl⟩) (hname.symm ▸ haxis) (hname.symm ▸ hfree)
    rwa [hname] at hread
  have hrefuse : ({ st with progress := .axis axis } : Assembler).readToken reserve m.name =
      ({ st with progress := .axis axis } : Assembler).refuse .pseudoInstructionInBlock := by
    have hinfo : axis ≠ .info := by
      rintro rfl
      cases haxis
    have hplain := ofSymbol?_eq_none_iff.2 (isSymbol_name m).plain
    simp only [readToken, hplain, setMnemonic, Mnemonic.ofSymbol?_name,
      if_neg hinfo, if_pos haxis, if_pos hm]
  rw [readTokens_cons hselect, readTokens, hrefuse]
  rfl

theorem AwaitsBlock.rest (h : st.AwaitsBlock) :
    st.progress = .idle ∧ st.mode = .closed ∧ st.slots = {} :=
  have hmode : st.mode = .closed := h.waiting.closed
  ⟨h.waiting.progress, hmode, h.reachable.settled.placed.closed hmode⟩

theorem AwaitsBlock.discard_eq (h : st.AwaitsBlock) (line : Nat) (blocks : BlockArray Block) :
    ({ st with line, blocks } : Assembler).discard = { st with line, blocks } := by
  obtain ⟨hprogress, hmode, hslots⟩ := h.rest
  rw [discard, hprogress, hmode, hslots]

theorem AwaitsBlock.stop_eq (h : st.AwaitsBlock) (line : Nat) (e : Assembly.Error) :
    ({ st with line } : Assembler).stop e = { st with line, failed := some e } := by
  rw [stop, h.discard_eq line st.blocks]

theorem axes_listed (hu : ∀ t ∈ before, (u t).Lists t.1 t.2) :
    ((before.map u).map Motion.op).map Opcode.axis = before.map Prod.fst := by
  rw [List.map_map, List.map_map]
  exact List.map_congr_left fun t ht => (hu t ht).axis

theorem nodup_axes (haxes : b.axes = before ++ after) :
    (before.map Prod.fst ++ after.map Prod.fst).Nodup := by
  rw [← List.map_append, ← haxes, b.map_fst_axes]
  decide

theorem fits_listed (haxes : b.axes = before ++ after)
    (hu : ∀ t ∈ before, (u t).Lists t.1 t.2) : Fits {} (before.map u) := by
  refine fits_empty (List.forall_mem_map.2 fun t ht => (hu t ht).proper) ?_
  have hnodup := (List.nodup_append.1 (nodup_axes haxes)).1
  rw [← axes_listed hu, List.map_map] at hnodup
  exact hnodup

theorem holds_listed {t : Axis × AxisWords} (haxes : b.axes = before ++ t :: after)
    (hu : ∀ t ∈ before, (u t).Lists t.1 t.2) :
    (Slots.fill {} ((before.map u).map Motion.op)).holds t.1 = false := by
  have hnew : t.1 ∉ ((before.map u).map Motion.op).map Opcode.axis := by
    rw [axes_listed hu]
    exact fun h => List.disjoint_of_nodup_append (nodup_axes haxes) h (List.mem_cons_self ..)
  rw [Slots.holds, (fits_listed haxes hu).fills.get?_of_not_mem hnew]
  cases t.1 <;> rfl

/-- The first of the axes come into their slots. -/
theorem AwaitsBlock.readTokens_listed (h : st.AwaitsBlock) (hrows : Listing.Rows b row text)
    (haxes : b.axes = before ++ after) (hu : ∀ t ∈ before, (u t).Lists t.1 t.2) :
    st.advance.readTokens reserve (tokensOf text) =
      (st.within (st.line + 1) .explicit
        (Slots.fill {} ((before.map u).map Motion.op))).readTokens reserve
          ((after.map row).flatten ++ ["end"]) := by
  have hwords : before.map row = (before.map u).map Motion.words := by
    rw [List.map_map]
    refine List.map_congr_left fun t ht => ?_
    have hmem : t ∈ b.axes := by
      rw [haxes]
      exact List.mem_append_left _ ht
    exact Except.ok.inj ((hrows.listed t hmem).symm.trans (hu t ht).listed)
  have hread : (st.within (st.line + 1) .explicit {}).readTokens reserve
      (((before.map u).map Motion.words).flatten ++ ((after.map row).flatten ++ ["end"])) = _ :=
    readTokens_words rfl nofun (fits_listed haxes hu)
  rw [hrows.tokens, haxes, List.map_append, List.flatten_append, List.cons_append,
    h.waiting.readTokens_opening (by decide), List.append_assoc, hwords]
  exact hread

theorem AwaitsBlock.line_lt (h : st.AwaitsBlock) (hline : st.line ≠ maxLine) :
    st.line < maxLine := Nat.lt_of_le_of_ne h.reachable.line_le hline

theorem AwaitsBlock.readLine_motion {blocks : BlockArray Block} (h : st.AwaitsBlock)
    (hline : st.line ≠ maxLine) (htext : Listing.block b = .ok text)
    (hb : ∀ t ∈ b.axes, t.2.masked.instruction ≤ 2)
    (hroom : st.blocks.push reserve b.masked = .ok blocks) :
    st.readLine reserve text = { st with line := st.line + 1, blocks } := by
  have hless := h.line_lt hline
  obtain ⟨row, hrows⟩ := Listing.exists_rows htext
  have hmasked {t : Axis × AxisWords} (ht : t ∈ b.axes) :
      b.masked.axis? t.1 = some t.2.masked := by
    rw [← Block.mem_axes, Block.axes_masked]
    exact List.mem_map.2 ⟨t, ht, rfl⟩
  choose! u hu using fun t (ht : t ∈ b.axes) =>
    exists_motion (isMotion_of_mem_axes ht) (hb t ht)
  have hwhole : b.axes = b.axes ++ [] := (List.append_nil _).symm
  have hfits := fits_listed hwhole hu
  have haxes : ((b.axes.map u).map Motion.op).map Opcode.axis = Axis.motion := axes_listed hu
  have hdenotes : b.masked.Denotes ((b.axes.map u).map Motion.op) := by
    refine ⟨by rw [haxes]; decide, ?_, fun axis w hw hnot => ?_⟩
    · refine List.forall_mem_map.2 (List.forall_mem_map.2 fun t ht => ⟨t.2.masked, ?_, ?_⟩)
      · rw [(hu t ht).axis]
        exact hmasked ht
      · exact (hu t ht).means
    · rw [haxes, ← Block.map_fst_axes b.masked] at hnot
      exact absurd (List.mem_map_of_mem (Block.mem_axes.2 hw)) hnot
  obtain ⟨slots, hfills, hcompile⟩ := (denotes_iff hfits.moves).1 hdenotes
  have hread : st.advance.readTokens reserve (tokensOf text) =
      (st.within (st.line + 1) .explicit slots).closeBlock reserve := by
    rw [h.readTokens_listed hrows hwhole hu, hfills.eq_fill]
    exact readTokens_closing rfl nofun (by decide)
  have hpush : st.blocks.pushSlots reserve slots = .ok blocks := by
    rw [BlockArray.pushSlots, hcompile]
    change (st.blocks.push reserve b.masked).mapError _ = _
    rw [hroom]
    rfl
  rw [readLine_closes h.failed hless rfl hrows.tokens_ne_nil hread, appended,
    if_pos (Nat.succ_le_of_lt hless), hpush]
  exact h.discard_eq _ _

theorem isPseudo_of_code {m : Mnemonic} (h : 2 < m.instruction.code) : m.isPseudo = true := by
  cases m <;> first | rfl | exact absurd h (by decide)

theorem AwaitsBlock.readLine_pseudo (h : st.AwaitsBlock) (hline : st.line ≠ maxLine)
    (htext : Listing.block b = .ok text) (hb : ∃ t ∈ b.axes, 2 < t.2.masked.instruction) :
    st.readLine reserve text =
      { st with
        line := st.line + 1
        failed := some ⟨some (st.line + 1), .pseudoInstructionInBlock⟩ } := by
  have hless := h.line_lt hline
  obtain ⟨row, hrows⟩ := Listing.exists_rows htext
  -- The first of them is the one that is refused.
  obtain ⟨t, hfirst⟩ : ∃ t, b.axes.find? (fun t => 2 < t.2.masked.instruction) = some t := by
    rw [← Option.isSome_iff_exists, List.find?_isSome]
    simpa using hb
  obtain ⟨hcode, before, after, haxes, hbefore⟩ := List.find?_eq_some_iff_append.1 hfirst
  have hmem : t ∈ b.axes := List.mem_of_find?_eq_some hfirst
  have hmotion : ∀ v ∈ before, v ∈ b.axes ∧ v.2.masked.instruction ≤ 2 := fun v hv => by
    refine ⟨?_, by simpa using hbefore v hv⟩
    rw [haxes]
    exact List.mem_append_left _ hv
  choose! u hu using fun v (hv : v ∈ before) =>
    exists_motion (isMotion_of_mem_axes (hmotion v hv).1) (hmotion v hv).2
  obtain ⟨m, hm, hrow⟩ := Listing.exists_tuple (hrows.code_le t hmem)
  have hwords : row t = Listing.row t.1 t.2 m :=
    Except.ok.inj ((hrows.listed t hmem).symm.trans (hrow t.1).1)
  have hpseudo : m.isPseudo = true := isPseudo_of_code (by rw [hm]; simpa using hcode)
  have hrefused (more : List String) :
      (st.within (st.line + 1) .explicit
        (Slots.fill {} ((before.map u).map Motion.op))).readTokens reserve
          (t.1.name :: m.name :: more) = _ :=
    readTokens_pseudo rfl nofun (isMotion_of_mem_axes hmem) (holds_listed haxes hu) hpseudo
  have hread : st.advance.readTokens reserve _ = _ := h.readTokens_listed hrows haxes hu
  rw [List.map_cons, List.flatten_cons, hwords, List.append_assoc] at hread
  rw [readLine_eq h.failed hless rfl hrows.tokens_ne_nil, hread, Listing.row, List.cons_append,
    List.cons_append, hrefused]
  exact h.stop_eq (st.line + 1) _

theorem AwaitsBlock.readLine_uncounted (h : st.AwaitsBlock) (hfull : st.line = maxLine) :
    st.readLine reserve text = { st with failed := some ⟨none, .lineNumberOverflow⟩ } := by
  have hnot : ¬ st.failed.isSome := by simp [h.failed]
  rw [readLine, if_neg hnot, if_pos (Nat.le_of_eq hfull.symm)]
  exact h.stop_eq st.line _

theorem masked_eq_self (h : ∀ t ∈ b.axes, t.2.instruction ≤ 2) : b.masked = b := by
  have hword {w : AxisWords} (hw : w.instruction ≤ 2) : w.masked = w := by
    have hcode : w.instruction &&& 0xF = w.instruction := by
      rcases le_two_iff.1 hw with hw | hw | hw <;> rw [hw] <;> rfl
    rw [AxisWords.masked, hcode]
  rw [Block.masked, hword (h (.x, b.x) (by simp [Block.axes])),
    hword (h (.y, b.y) (by simp [Block.axes])), hword (h (.z, b.z) (by simp [Block.axes])),
    hword (h (.a, b.a) (by simp [Block.axes]))]

theorem forall_axes_masked {P : AxisWords → Prop} :
    (∀ t ∈ b.masked.axes, P t.2) ↔ ∀ t ∈ b.axes, P t.2.masked := by
  rw [Block.axes_masked, List.forall_mem_map]

theorem AwaitsBlock.returns_iff {blocks : BlockArray Block} (h : st.AwaitsBlock)
    (hline : st.line ≠ maxLine) (hroom : st.blocks.push reserve b.masked = .ok blocks) :
    (∃ text, Listing.block b = .ok text ∧ (st.readLine reserve text).failed = none ∧
      (st.readLine reserve text).blocks.toList = st.blocks.toList ++ [b]) ↔
        ∀ t ∈ b.axes, t.2.instruction ≤ 2 := by
  have hadded := BlockArray.toList_push hroom
  refine ⟨?_, fun hb => ?_⟩
  · rintro ⟨text, htext, hnone, hblocks⟩
    by_cases hb : ∀ t ∈ b.axes, t.2.masked.instruction ≤ 2
    · rw [h.readLine_motion hline htext hb hroom, hadded] at hblocks
      have hsame : b.masked = b := List.singleton_inj.1 (List.append_cancel_left hblocks)
      rwa [← forall_axes_masked (P := fun w => w.instruction ≤ 2), hsame] at hb
    · rw [h.readLine_pseudo hline htext (by simpa using hb)] at hnone
      cases hnone
  · have hsame := masked_eq_self hb
    have hle : ∀ t ∈ b.axes, t.2.masked.instruction ≤ 2 := by
      rwa [← forall_axes_masked (P := fun w => w.instruction ≤ 2), hsame]
    obtain ⟨text, htext⟩ :=
      Listing.exists_text_iff.2 fun t ht => UInt32.le_trans (hle t ht) (by decide)
    refine ⟨text, htext, ?_⟩
    rw [h.readLine_motion hline htext hle hroom, hadded, hsame]
    exact ⟨h.failed, rfl⟩

/-- Exactly the blocks with an instruction word that names nothing have no listing, and the first
such word of the axes is reported. The listing of any other block is a line that adds one block, the
one that has only the low four bits of each instruction word; unless one of these is a pseudo
instruction, which is refused. So just the blocks of motions come back as they were. -/
theorem readLine_listing (b : Block) :
    (∀ e, Listing.block b = .error e ↔
      ∃ t, b.axes.find? (fun t => 4 < t.2.masked.instruction) = some t ∧ e = ⟨t.2.instruction⟩) ∧
    ∀ (reserve : Reserve) (st : Assembler), st.AwaitsBlock →
      (∀ text, Listing.block b = .ok text →
        let after := st.readLine reserve text
        if st.line = maxLine then
          after = { st with failed := some ⟨none, .lineNumberOverflow⟩ }
        else
          ((∀ t ∈ b.axes, t.2.masked.instruction ≤ 2) →
            ∀ blocks, st.blocks.push reserve b.masked = .ok blocks →
              after = { st with line := st.line + 1, blocks } ∧
                blocks.toList = st.blocks.toList ++ [b.masked]) ∧
          ((∃ t ∈ b.axes, t.2.masked.instruction = 3 ∨ t.2.masked.instruction = 4) →
            after = { st with
              line := st.line + 1
              failed := some ⟨some (st.line + 1), .pseudoInstructionInBlock⟩ })) ∧
      (st.line ≠ maxLine → (∃ blocks, st.blocks.push reserve b.masked = .ok blocks) →
        ((∃ text, Listing.block b = .ok text ∧ (st.readLine reserve text).failed = none ∧
          (st.readLine reserve text).blocks.toList = st.blocks.toList ++ [b]) ↔
            ∀ t ∈ b.axes, t.2.instruction ≤ 2)) := by
  refine ⟨fun e => Listing.block_eq_error_iff, fun reserve st hst => ⟨fun text htext => ?_, ?_⟩⟩
  · intro after
    split
    case isTrue hfull => exact hst.readLine_uncounted hfull
    case isFalse hline =>
      refine ⟨fun hb blocks hroom =>
        ⟨hst.readLine_motion hline htext hb hroom, BlockArray.toList_push hroom⟩, ?_⟩
      rintro ⟨t, ht, hcode⟩
      refine hst.readLine_pseudo hline htext ⟨t, ht, ?_⟩
      rcases hcode with hcode | hcode <;> rw [hcode] <;> decide
  · rintro hline ⟨blocks, hroom⟩
    exact hst.returns_iff hline hroom

/-- High bits are lost, a dwell stays one, and the first of two pseudo instructions or invalid words
is the one that counts. -/
theorem readLine_listing_of_high_bits :
    let any : Reserve := fun _ => true
    let st := (ofBlocks .empty).readLines any ["INFO, HEADER, 1", "INFO, CONFIG, 4"]
    let turn : Block :=
      { x := { instruction := 0xFFFFFFF1, rate := 5 }, a := { instruction := 0x20, width := 7 } }
    let text := "begin, X, CW, 5, 0, 0, Y, NOP, 0, 0, 0, Z, NOP, 0, 0, 0, A, DWELL, 0, 0, 7, end"
    let pseudo : Block := { y := { instruction := 0x14 }, z := { instruction := 3 } }
    let pseudoText :=
      "begin, X, NOP, 0, 0, 0, Y, CONFIG, 0, 0, 0, Z, HEADER, 0, 0, 0, A, NOP, 0, 0, 0, end"
    let invalid : Block := { y := { instruction := 0x15 }, z := { instruction := 6 } }
    st.AwaitsBlock ∧ Listing.block turn = .ok text ∧ Listing.block pseudo = .ok pseudoText ∧
      (st.readLine any text).blocks.toList = [turn.masked] ∧
      (st.readLine any pseudoText).failed = some ⟨some 3, .pseudoInstructionInBlock⟩ ∧
      (st.readLine any pseudoText).blocks.toList = [] ∧
      Listing.block invalid = .error ⟨0x15⟩ := by
  intro any st turn text pseudo pseudoText invalid
  have hst : st.AwaitsBlock :=
    ⟨(Reachable.start .empty).readLines _, by decide +kernel, by decide +kernel, by decide +kernel⟩
  have hline : st.line = 2 := by decide +kernel
  have hblocks : st.blocks = .empty := by decide +kernel
  have hcounted : st.line ≠ maxLine := by
    rw [hline]
    decide
  have hturn : Listing.block turn = .ok text := by decide +kernel
  have hpseudo : Listing.block pseudo = .ok pseudoText := by decide +kernel
  have hread := ((readLine_listing turn).2 any st hst).1 text hturn
  have hrefused := ((readLine_listing pseudo).2 any st hst).1 pseudoText hpseudo
  simp only [if_neg hcounted] at hread hrefused
  obtain ⟨hafter, hadded⟩ := hread.1 (by decide) _
    (by rw [hblocks]; exact BlockArray.push_of_lt (by decide))
  have hstopped := hrefused.2 (by decide)
  have hinvalid := ((readLine_listing invalid).1 ⟨0x15⟩).2 ⟨(.y, invalid.y), by decide, rfl⟩
  refine ⟨hst, hturn, hpseudo, ?_, ?_, ?_, hinvalid⟩
  · rw [hafter, hadded, hblocks]
    rfl
  · rw [hstopped, hline]
  · rw [hstopped, hblocks]
    rfl

/-- On the last line that can be counted no listing is read, though there is room for the block. -/
theorem readLine_listing_not_at_last_line :
    let any : Reserve := fun _ => true
    let st := (ofBlocks .empty).readLines any (preamble (maxLine - 2))
    let b : Block := {}
    let text := "begin, X, NOP, 0, 0, 0, Y, NOP, 0, 0, 0, Z, NOP, 0, 0, 0, A, NOP, 0, 0, 0, end"
    st.AwaitsBlock ∧ Listing.block b = .ok text ∧ (∀ t ∈ b.axes, t.2.masked.instruction ≤ 2) ∧
      (∃ blocks, st.blocks.push any b = .ok blocks) ∧
      (st.readLine any text).failed = some ⟨none, .lineNumberOverflow⟩ ∧
      (st.readLine any text).blocks.length = 0 := by
  intro any st b text
  have hst : st = afterPreamble (maxLine - 2) := readLines_preamble (by decide)
  rw [hst]
  exact ⟨awaitsBlock_afterPreamble (by decide), by decide +kernel, by decide,
    ⟨_, BlockArray.push_of_lt (by decide)⟩, by decide +kernel, by decide +kernel⟩

end Assembler

end PulseMill
