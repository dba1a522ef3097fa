import PulseMill.Proofs.BetweenLines
import PulseMill.Proofs.Words
set_option autoImplicit false

namespace PulseMill

open Assembly (readNumber compileOpcode)

/-- A word that is no keyword. -/
structure IsSymbol (s : String) : Prop where
  word : IsWord s
  plain : ¬ IsKeyword s

theorem IsWord.ne_empty {s : String} (h : IsWord s) : s ≠ "" := by
  rintro rfl
  exact (Text.tight_iff.1 h.tight).1 rfl

theorem isSymbol_name (m : Mnemonic) : IsSymbol m.name := by
  cases m <;> exact ⟨isWord_of_isAlphanum (by decide) rfl, by decide⟩

theorem toLower_of_isDigit {c : Char} (h : c.isDigit) : c.toLower = c := by
  simp only [Char.isDigit, Bool.and_eq_true, decide_eq_true_eq] at h
  refine dif_neg fun hupper => ?_
  exact absurd (UInt32.le_trans hupper.1 h.2) (by decide)

theorem isSymbol_repr (n : Nat) : IsSymbol n.repr where
  word := isWord_repr n
  plain := by
    have hdigits : ∀ c ∈ n.repr.toList, c.isDigit := by
      rw [Nat.toList_repr]
      exact fun _ => Nat.isDigit_of_mem_toDigits (by decide) (by decide)
    have hfolded : Text.folded n.repr = n.repr.toList.map id :=
      List.map_congr_left fun c hc => toLower_of_isDigit (hdigits c hc)
    have hdiffers {t : String} (c : Char) (hc : c ∈ Text.folded t) (hletter : c.isDigit = false) :
        ¬ Text.sameName n.repr t := by
      intro hsame
      rw [← Text.sameName_iff.1 hsame, hfolded, List.map_id] at hc
      rw [hdigits c hc] at hletter
      cases hletter
    exact not_or.2 ⟨hdiffers 'b' (by decide) rfl, hdiffers 'e' (by decide) rfl⟩

def Opcode.words (op : Opcode) : List String :=
  op.axis.name :: op.mnemonic.getD "NOP" :: op.args.map (·.getD "0")

/-- Nothing of it is left out, and all of it is read as it is written. -/
structure Opcode.Written (op : Opcode) : Prop where
  axis : op.axis ∈ Axis.nameable
  mnemonic : ∃ s, op.mnemonic = some s ∧ IsSymbol s
  args : ∀ arg ∈ op.args, ∃ s, arg = some s ∧ IsSymbol s

variable {reserve : Reserve} {op header config : Opcode} {ops : List Opcode} {axis : Axis}
  {w : AxisWords} {m : Mnemonic} {b : Block} {ls : List Lexeme} {ps rest : List Piece}

theorem Axis.isWord_name (h : axis ∈ Axis.nameable) : IsWord axis.name := by
  simp only [Axis.nameable, List.mem_cons, List.not_mem_nil, or_false] at h
  rcases h with rfl | rfl | rfl | rfl | rfl | rfl | rfl | rfl | rfl | rfl <;>
    exact isWord_of_isAlphanum (by decide) rfl

theorem Opcode.Written.isRow (h : op.Written) : IsRow op.words where
  ne_nil := List.cons_ne_nil _ _
  words := by
    obtain ⟨s, hs, hsymbol⟩ := h.mnemonic
    have hargs : ∀ token ∈ op.args.map (·.getD "0"), IsWord token :=
      List.forall_mem_map.2 fun arg harg => by
        obtain ⟨t, rfl, ht⟩ := h.args arg harg
        exact ht.word
    refine List.forall_mem_cons.2 ⟨Axis.isWord_name h.axis, List.forall_mem_cons.2 ⟨?_, hargs⟩⟩
    rw [hs]
    exact hsymbol.word

theorem argument?_of_isSymbol {s : String} (h : IsSymbol s) : argument? s = some s := by
  simp [argument?, h.word.ne_empty]

theorem Opcode.Written.reads (h : op.Written) (hrest : Reads ls ps) :
    Reads (op.words.map .word ++ ls) (.tuple op :: ps) := by
  obtain ⟨axis, mnemonic, arg0, arg1, arg2⟩ := op
  obtain ⟨s, rfl, hs⟩ := h.mnemonic
  obtain ⟨p, rfl, hp⟩ := h.args arg0 (by simp [Opcode.args])
  obtain ⟨q, rfl, hq⟩ := h.args arg1 (by simp [Opcode.args])
  obtain ⟨r, rfl, hr⟩ := h.args arg2 (by simp [Opcode.args])
  have hargs : ArgumentWords 3 [p, q, r] ls :=
    ⟨by simp [hp.plain, hq.plain, hr.plain], by simp, by simp⟩
  have hreads := Reads.tuple h.axis (Text.sameName_refl _) hs.plain hargs hrest
  simp only [List.map_cons, List.map_nil, argument?_of_isSymbol hp, argument?_of_isSymbol hq,
    argument?_of_isSymbol hr] at hreads
  exact hreads

structure Opcode.Lists (op : Opcode) (axis : Axis) (w : AxisWords) : Prop where
  listed : Listing.tuple axis w = .ok op.words
  axis : op.axis = axis
  moves : op.Moves
  means : op.Means w
  written : op.Written

theorem exists_mnemonic (h : w.instruction = 0 ∨ w.instruction = 1 ∨ w.instruction = 2) :
    ∃ m, w.mnemonic = .ok m ∧ m.isPseudo = false ∧ w.instruction = m.instruction.code := by
  have hcode (i : Instruction) (hi : w.instruction = i.code) :
      w.mnemonic = .ok (.ofInstruction w.hasPulses i) ∧
        w.instruction = (Mnemonic.ofInstruction w.hasPulses i).instruction.code := by
    simp [AxisWords.mnemonic, hi, Except.map]
  rcases h with h | h | h
  · obtain ⟨hm, hsame⟩ := hcode .nop h
    exact ⟨_, hm, by cases w.hasPulses <;> rfl, hsame⟩
  · obtain ⟨hm, hsame⟩ := hcode .cw h
    exact ⟨_, hm, rfl, hsame⟩
  · obtain ⟨hm, hsame⟩ := hcode .ccw h
    exact ⟨_, hm, rfl, hsame⟩

theorem exists_lists (haxis : axis.isMotion)
    (h : w.instruction = 0 ∨ w.instruction = 1 ∨ w.instruction = 2) :
    ∃ op, Opcode.Lists op axis w := by
  obtain ⟨m, hm, hpseudo, hcode⟩ := exists_mnemonic h
  have hnames : (Opcode.ofArgs axis m.name [some w.rate.toNat.repr, some w.count.toNat.repr,
      some w.width.toNat.repr]).Names m := ⟨m.name, rfl, Text.sameName_refl _⟩
  refine ⟨_, ?_, rfl, ⟨haxis, m, hnames, hpseudo⟩, ⟨⟨m, hnames, hcode⟩, ?_, ?_, ?_⟩, ?_, ?_, ?_⟩
  · rw [Listing.tuple, hm]
    rfl
  · exact Assembly.readNumber_repr w.rate
  · exact Assembly.readNumber_repr w.count
  · exact Assembly.readNumber_repr w.width
  · exact Axis.mem_nameable haxis
  · exact ⟨_, rfl, isSymbol_name m⟩
  · rw [Opcode.args_ofArgs]
    intro arg harg
    simp only [List.mem_cons, List.not_mem_nil, or_false] at harg
    rcases harg with rfl | rfl | rfl <;> exact ⟨_, rfl, isSymbol_repr _⟩

def blockWords (ops : List Opcode) : List String :=
  "begin" :: (ops.map Opcode.words).flatten ++ ["end"]

structure Block.Lists (b : Block) (ops : List Opcode) : Prop where
  listed : Listing.blockTokens b = .ok (blockWords ops)
  written : ∀ op ∈ ops, op.Written
  moves : ∀ op ∈ ops, op.Moves
  denotes : b.Denotes ops

theorem mapM_eq_ok {ε α β : Type} {f : α → Except ε β} {g : α → β} {l : List α}
    (h : ∀ a ∈ l, f a = .ok (g a)) : l.mapM f = .ok (l.map g) := by
  induction l with
  | nil => rfl
  | cons a l ih =>
    obtain ⟨hfirst, hmore⟩ := List.forall_mem_cons.1 h
    rw [List.mapM_cons, hfirst, ih hmore]
    rfl

theorem isMotion_of_mem_axes {t : Axis × AxisWords} (ht : t ∈ b.axes) : t.1.isMotion := by
  rw [← Axis.mem_motion, ← b.map_fst_axes]
  exact List.mem_map_of_mem ht

theorem Block.IsMotion.exists_lists (h : b.IsMotion) : ∃ ops, b.Lists ops := by
  have hlists : ∀ t ∈ b.axes, ∃ op, Opcode.Lists op t.1 t.2 := fun t ht =>
    PulseMill.exists_lists (isMotion_of_mem_axes ht) (h t.1 t.2 (Block.mem_axes.1 ht))
  choose! f hf using hlists
  have haxes : (b.axes.map f).map Opcode.axis = Axis.motion := by
    rw [← Block.map_fst_axes b, List.map_map]
    exact List.map_congr_left fun t ht => (hf t ht).axis
  refine ⟨b.axes.map f, ?_, ?_, ?_, ?_, ?_, ?_⟩
  · have hcall : Listing.blockTokens b = (b.axes.mapM fun t => Listing.tuple t.1 t.2) >>=
        fun tuples => .ok ("begin" :: tuples.flatten ++ ["end"]) := rfl
    have hwords : (b.axes.mapM fun t => Listing.tuple t.1 t.2) =
        .ok (b.axes.map fun t => (f t).words) := mapM_eq_ok fun t ht => (hf t ht).listed
    rw [hcall, hwords, blockWords, List.map_map]
    rfl
  · exact List.forall_mem_map.2 fun t ht => (hf t ht).written
  · exact List.forall_mem_map.2 fun t ht => (hf t ht).moves
  · rw [haxes]
    decide
  · refine List.forall_mem_map.2 fun t ht => ⟨t.2, ?_, (hf t ht).means⟩
    rw [(hf t ht).axis]
    exact Block.mem_axes.1 ht
  · intro axis w hw hnot
    rw [haxes, ← Block.map_fst_axes b] at hnot
    exact absurd (List.mem_map_of_mem (Block.mem_axes.2 hw)) hnot

theorem isRow_enclosed {rows : List (List String)} (h : ∀ row ∈ rows, ∀ token ∈ row, IsWord token) :
    IsRow ("begin" :: rows.flatten ++ ["end"]) where
  ne_nil := List.cons_ne_nil _ _
  words := by
    have hbegin : IsWord "begin" := isWord_of_isAlphanum (by decide) rfl
    have hend : IsWord "end" := isWord_of_isAlphanum (by decide) rfl
    have htuples : ∀ token ∈ rows.flatten, IsWord token := by
      intro token htoken
      obtain ⟨row, hrow, htoken⟩ := List.mem_flatten.1 htoken
      exact h row hrow token htoken
    refine List.forall_mem_append.2 ⟨List.forall_mem_cons.2 ⟨hbegin, htuples⟩, ?_⟩
    exact List.forall_mem_singleton.2 hend

theorem isRow_blockWords (h : ∀ op ∈ ops, op.Written) : IsRow (blockWords ops) :=
  isRow_enclosed (List.forall_mem_map.2 fun op hop => (h op hop).isRow.words)

theorem reads_tuples (h : ∀ op ∈ ops, op.Written) (hrest : Reads ls ps) :
    Reads ((ops.map Opcode.words).flatten.map .word ++ ls) (ops.map .tuple ++ ps) := by
  induction ops with
  | nil => exact hrest
  | cons op ops ih =>
    obtain ⟨hop, hmore⟩ := List.forall_mem_cons.1 h
    rw [List.map_cons, List.flatten_cons, List.map_append, List.append_assoc]
    exact hop.reads (ih hmore)

def blockPieces (ops : List Opcode) : List Piece :=
  .opening :: (ops.map .tuple ++ [.closing, .lineEnd])

theorem reads_block (h : ∀ op ∈ ops, op.Written) (hrest : Reads ls ps) :
    Reads ((blockWords ops).map .word ++ .lineEnd :: ls) (blockPieces ops ++ ps) := by
  have hbegin : (Lexeme.word "begin").piece? = some .opening := rfl
  have hend : (Lexeme.word "end").piece? = some .closing := rfl
  have hline : Reads (.lineEnd :: ls) (.lineEnd :: ps) := .single rfl hrest
  have htuples := reads_tuples h (.single hend hline)
  simpa [blockWords, blockPieces] using htuples.single hbegin

theorem body_tuples (h : ∀ op ∈ ops, op.Moves) :
    Body .explicit ops (ops.map .tuple ++ .closing :: rest) rest := by
  induction ops with
  | nil => exact .close (.inl rfl)
  | cons op ops ih =>
    obtain ⟨hop, hmore⟩ := List.forall_mem_cons.1 h
    exact .motion hop (ih hmore)

theorem sections_block {ss : List Section} (h : ∀ op ∈ ops, op.Moves) (hrest : Sections ss ps) :
    Sections (.block ops :: ss) (blockPieces ops ++ ps) := by
  have hline : Sections ss (.lineEnd :: ps) := .lineEnd hrest
  simpa [blockPieces] using hline.explicit (body_tuples h)

def programRows (header config : Opcode) (bodies : List (List Opcode)) : List (List String) :=
  header.words :: config.words :: bodies.map blockWords

def programPieces (header config : Opcode) (bodies : List (List Opcode)) : List Piece :=
  .tuple header :: .lineEnd :: .tuple config :: .lineEnd :: bodies.flatMap blockPieces

variable {bodies : List (List Opcode)}

theorem reads_bodies (h : ∀ ops ∈ bodies, ∀ op ∈ ops, op.Written) :
    Reads (lexemesOf (bodies.map blockWords)) (bodies.flatMap blockPieces) := by
  induction bodies with
  | nil => exact .nil
  | cons ops bodies ih =>
    obtain ⟨hops, hmore⟩ := List.forall_mem_cons.1 h
    simpa [lexemesOf] using reads_block hops (ih hmore)

theorem reads_program (hheader : header.Written) (hconfig : config.Written)
    (hbodies : ∀ ops ∈ bodies, ∀ op ∈ ops, op.Written) :
    Reads (lexemesOf (programRows header config bodies)) (programPieces header config bodies) := by
  have hend {ls : List Lexeme} {ps : List Piece} (h : Reads ls ps) :
      Reads (.lineEnd :: ls) (.lineEnd :: ps) := .single rfl h
  have hlines := hheader.reads (hend (hconfig.reads (hend (reads_bodies hbodies))))
  simpa [lexemesOf, programRows, programPieces] using hlines

theorem sections_bodies (h : ∀ ops ∈ bodies, ∀ op ∈ ops, op.Moves) :
    Sections (bodies.map .block) (bodies.flatMap blockPieces) := by
  induction bodies with
  | nil => exact .nil
  | cons ops bodies ih =>
    obtain ⟨hops, hmore⟩ := List.forall_mem_cons.1 h
    exact sections_block hops (ih hmore)

/-- A program that the assembler can have made, with no argument left out. -/
structure Program.Written (p : Program) : Prop where
  lines : ∃ header config, p.info = ⟨some header, some config⟩ ∧
    (header.Written ∧ header.axis = .info ∧ header.Declares .header) ∧
    (config.Written ∧ config.axis = .info ∧ config.Declares .config)
  motion : ∀ b ∈ p.blocks.toList, b.IsMotion

theorem infoTokens_eq_words (h : op.axis = .info) : Listing.infoTokens op = op.words := by
  rw [Opcode.words, h]
  rfl

structure Program.Lists (p : Program) (rows : List (List String)) : Prop where
  listed : Listing.lines p = .ok (rows.map Listing.line)
  isRow : ∀ row ∈ rows, IsRow row
  length : rows.length = p.blocks.length + 2
  denotes : ∃ ps ss, Reads (lexemesOf rows) ps ∧ Sections ss ps ∧
    DenotesProgram ss p.info p.blocks.toList

theorem Program.Written.exists_lists {p : Program} (h : p.Written) : ∃ rows, p.Lists rows := by
  obtain ⟨header, config, hinfo, ⟨hheader, hheaderAxis, hdeclares⟩,
    ⟨hconfig, hconfigAxis, hdeclares'⟩⟩ := h.lines
  have hbodies : ∀ b ∈ p.blocks.toList, ∃ ops, b.Lists ops :=
    fun b hb => (h.motion b hb).exists_lists
  choose! f hf using hbodies
  have hwritten : ∀ ops ∈ p.blocks.toList.map f, ∀ op ∈ ops, op.Written :=
    List.forall_mem_map.2 fun b hb => (hf b hb).written
  have hmoves : ∀ ops ∈ p.blocks.toList.map f, ∀ op ∈ ops, op.Moves :=
    List.forall_mem_map.2 fun b hb => (hf b hb).moves
  refine ⟨programRows header config (p.blocks.toList.map f), ?_, ?_, ?_, _,
    .info header :: .info config :: (p.blocks.toList.map f).map .block,
    reads_program hheader hconfig hwritten, ?_, ?_⟩
  · have hblocks : p.blocks.toList.mapM Listing.block =
        .ok (p.blocks.toList.map fun b => Listing.line (blockWords (f b))) :=
      mapM_eq_ok fun b hb => by rw [Listing.block, (hf b hb).listed]; rfl
    rw [Listing.lines, hblocks, hinfo]
    simp [Listing.infoLines, programRows, infoTokens_eq_words hheaderAxis,
      infoTokens_eq_words hconfigAxis, Bind.bind, Except.bind, Pure.pure, Except.pure]
  · refine List.forall_mem_cons.2 ⟨hheader.isRow, List.forall_mem_cons.2 ⟨hconfig.isRow, ?_⟩⟩
    exact List.forall_mem_map.2 fun ops hops => isRow_blockWords (hwritten ops hops)
  · simp [programRows, BlockArray.toList, BlockArray.length]
  · exact .info hheaderAxis (.inl hdeclares.1) (.lineEnd
      (.info hconfigAxis (.inr hdeclares'.1) (.lineEnd (sections_bodies hmoves))))
  · refine ⟨header, config, _, hinfo, hdeclares, hdeclares', .inl rfl, ?_⟩
    exact List.forall₂_map_right_iff.2 (List.forall₂_same.2 fun b hb => (hf b hb).denotes)

end PulseMill
