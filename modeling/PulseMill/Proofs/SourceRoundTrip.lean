import PulseMill.Proofs.ImageRoundTrip
import PulseMill.Proofs.ListedProgram
set_option autoImplicit false

namespace PulseMill

open Assembly (readNumber compileOpcode)

/-- An argument that was left out is a written zero. -/
def Opcode.spelledOut (op : Opcode) : Opcode :=
  { op with
    arg0 := some (op.arg0.getD "0")
    arg1 := some (op.arg1.getD "0")
    arg2 := some (op.arg2.getD "0") }

def Info.spelledOut (i : Info) : Info :=
  ⟨i.header.map Opcode.spelledOut, i.config.map Opcode.spelledOut⟩

def Info.lines (i : Info) : List Opcode := i.header.toList ++ i.config.toList

variable {reserve : Reserve} {source s : String} {p : Program} {op : Opcode} {m : Mnemonic}
  {w : AxisWords} {ls : List Lexeme} {ps rest : List Piece} {ss : List Section}

theorem readNumber_getD (arg : Option String) :
    readNumber (some (arg.getD "0")) = readNumber arg := by cases arg <;> rfl

theorem compileOpcode_spelledOut (op : Opcode) :
    compileOpcode op.spelledOut = compileOpcode op := by
  simp only [compileOpcode, Opcode.spelledOut, readNumber_getD]

theorem listing_spelledOut (i : Info) (a : BlockArray Block) :
    Listing.program ⟨i.spelledOut, a⟩ = Listing.program ⟨i, a⟩ := by
  have hinfo : Listing.infoLines i.spelledOut = Listing.infoLines i := by
    obtain ⟨header, config⟩ := i
    cases header <;> cases config <;> rfl
  simp only [Listing.program, Listing.lines, hinfo]

theorem Opcode.spelledOut_eq_self_iff : op.spelledOut = op ↔ none ∉ op.args := by
  obtain ⟨axis, mnemonic, arg0, arg1, arg2⟩ := op
  cases arg0 <;> cases arg1 <;> cases arg2 <;> simp [Opcode.spelledOut, Opcode.args]

theorem Info.spelledOut_eq_self_iff {i : Info} :
    i.spelledOut = i ↔ ∀ op ∈ i.lines, none ∉ op.args := by
  obtain ⟨header, config⟩ := i
  cases header <;> cases config <;>
    simp [Info.spelledOut, Info.lines, Opcode.spelledOut_eq_self_iff]

theorem Block.Denotes.isMotion {b : Block} {ops : List Opcode} (h : b.Denotes ops)
    (hops : ∀ op ∈ ops, op.Moves) : b.IsMotion := by
  intro axis w hw
  by_cases hmem : axis ∈ ops.map Opcode.axis
  · obtain ⟨op, hop, rfl⟩ := List.mem_map.1 hmem
    obtain ⟨w', hw', hmeans⟩ := h.named op hop
    obtain rfl : w = w' := Option.some.inj (hw.symm.trans hw')
    exact hmeans.isMotion (hops op hop)
  · obtain rfl := h.unnamed axis w hw hmem
    exact .inl rfl

theorem Body.suffix {mode : Mode} {ops : List Opcode} (h : Body mode ops ps rest) :
    rest <:+ ps := by
  induction h with
  | close => exact List.suffix_cons _ _
  | blank _ ih => exact ih.trans (List.suffix_cons _ _)
  | lineEnd _ _ ih => exact ih.trans (List.suffix_cons _ _)
  | motion _ _ ih => exact ih.trans (List.suffix_cons _ _)

theorem Sections.info_mem (h : Sections ss ps) (hop : .info op ∈ ss) :
    op.axis = .info ∧ .tuple op ∈ ps := by
  induction h with
  | nil => cases hop
  | blank _ ih => exact (ih hop).imp_right (List.mem_cons_of_mem _)
  | lineEnd _ ih => exact (ih hop).imp_right (List.mem_cons_of_mem _)
  | info haxis _ _ ih =>
    rcases List.mem_cons.1 hop with heq | hop
    · obtain rfl := Section.info.inj heq
      exact ⟨haxis, List.mem_cons_self ..⟩
    · exact (ih hop).imp_right (List.mem_cons_of_mem _)
  | explicit hbody _ ih =>
    rcases List.mem_cons.1 hop with heq | hop
    · cases heq
    · exact (ih hop).imp_right fun hmem => List.mem_cons_of_mem _ (hbody.suffix.subset hmem)
  | implicit _ hbody _ ih =>
    rcases List.mem_cons.1 hop with heq | hop
    · cases heq
    · exact (ih hop).imp_right fun hmem => List.mem_cons_of_mem _ (hbody.suffix.subset hmem)

theorem mem_texts_ofArgs {axis : Axis} {symbol : String} {args : List String}
    (h : s ∈ (Opcode.ofArgs axis symbol (args.map argument?)).texts) : s = symbol ∨ s ∈ args := by
  have hargument {i : Nat} (hs : (args.map argument?)[i]?.join = some s) : s ∈ args := by
    obtain ⟨token, htoken, hargument⟩ :
        ∃ token, args[i]? = some token ∧ argument? token = some s := by
      simpa [Option.join_eq_some_iff] using hs
    have hsame : token = s := by
      unfold argument? at hargument
      split at hargument
      · cases hargument
      · exact Option.some.inj hargument
    rw [← hsame]
    exact List.mem_of_getElem? htoken
  simp only [Opcode.texts, Opcode.ofArgs, List.mem_append, Option.mem_toList] at h
  rcases h with ((h | h) | h) | h
  · exact .inl (Option.some.inj h).symm
  · exact .inr (hargument h)
  · exact .inr (hargument h)
  · exact .inr (hargument h)

theorem piece?_ne_tuple (l : Lexeme) : l.piece? ≠ some (.tuple op) := by
  intro h
  cases l with
  | lineEnd => cases h
  | word token =>
    cases hk : Keyword.ofSymbol? token with
    | none =>
      rw [piece?_of_plain hk] at h
      split at h <;> cases h
    | some k =>
      rw [piece?_of_keyword hk] at h
      cases k <;> cases h

theorem Reads.texts (h : Reads ls ps) (hop : .tuple op ∈ ps) (hs : s ∈ op.texts) :
    .word s ∈ ls ∧ ¬ IsKeyword s := by
  induction h with
  | nil => cases hop
  | single hp _ ih =>
    rcases List.mem_cons.1 hop with heq | hop
    · rw [← heq] at hp
      exact absurd hp (piece?_ne_tuple _)
    · exact (ih hop).imp_left (List.mem_cons_of_mem _)
  | tuple _ _ hsymbol hargs _ ih =>
    rcases List.mem_cons.1 hop with heq | hop
    · obtain rfl := Piece.tuple.inj heq
      rcases mem_texts_ofArgs hs with rfl | hmem
      · exact ⟨by simp, hsymbol⟩
      · exact ⟨by simp [hmem], hargs.plain s hmem⟩
    · exact (ih hop).imp_left fun hmem => by simp [hmem]

theorem symbol_of_source
    (hreads : Reads (lexemesOf ((sourceLines source).map Assembler.tokensOf)) ps)
    (hop : .tuple op ∈ ps) (hs : s ∈ op.texts) (hne : s ≠ "") :
    IsSymbol s ∧ s.utf8ByteSize ≤ source.utf8ByteSize := by
  obtain ⟨hmem, hplain⟩ := hreads.texts hop hs
  obtain ⟨line, hline, htoken⟩ : ∃ line ∈ sourceLines source, s ∈ Assembler.tokensOf line := by
    simpa [lexemesOf] using hmem
  obtain ⟨hword, hsize⟩ := isWord_of_mem_source hline htoken hne
  exact ⟨⟨hword, hplain⟩, hsize⟩

theorem isMotion_of_denotes {blocks : List Block} {bodies : List (List Opcode)}
    (h : List.Forall₂ Block.Denotes blocks bodies)
    (hbodies : ∀ ops ∈ bodies, ∀ op ∈ ops, op.Moves) : ∀ b ∈ blocks, b.IsMotion := by
  induction h with
  | nil => nofun
  | cons hb _ ih =>
    obtain ⟨hops, hmore⟩ := List.forall_mem_cons.1 hbodies
    exact List.forall_mem_cons.2 ⟨hb.isMotion hops, ih hmore⟩

structure Opcode.KeptFrom (op : Opcode) (m : Mnemonic) (source : String) : Prop where
  axis : op.axis = .info
  declares : op.Declares m
  texts : ∀ s ∈ op.texts, s ≠ "" → IsSymbol s ∧ s.utf8ByteSize ≤ source.utf8ByteSize

theorem kept_of_assemble (h : assemble reserve source = .ok p) :
    (∃ header config, p.info = ⟨some header, some config⟩ ∧
      header.KeptFrom .header source ∧ config.KeptFrom .config source) ∧
    ∀ b ∈ p.blocks.toList, b.IsMotion := by
  obtain ⟨-, ps, ss, blocks, hreads, hss, hdenotes, -, hblocks⟩ := assemble_eq_ok_filled.1 h
  obtain ⟨header, config, bodies, hinfo, hheader, hconfig, hsections, hbodies⟩ := hdenotes
  have hmem : .info header ∈ ss ∧ .info config ∈ ss ∧ ∀ ops ∈ bodies, .block ops ∈ ss := by
    rcases hsections with rfl | rfl <;> simp
  have hkept {op : Opcode} {m : Mnemonic} (hop : .info op ∈ ss) (hdeclares : op.Declares m) :
      op.KeptFrom m source := by
    obtain ⟨haxis, htuple⟩ := hss.info_mem hop
    exact ⟨haxis, hdeclares, fun s => symbol_of_source hreads htuple⟩
  refine ⟨⟨header, config, hinfo, hkept hmem.1 hheader, hkept hmem.2.1 hconfig⟩, ?_⟩
  rw [hblocks]
  exact isMotion_of_denotes hbodies fun ops hops => hss.proper _ (hmem.2.2 ops hops)

theorem filled_of_assemble (h : assemble reserve source = .ok p) :
    reserve.Covers p.blocks.length ∧ p.blocks = .filled p.blocks.toList := by
  obtain ⟨-, ps, ss, blocks, -, -, -, hroom, hblocks⟩ := assemble_eq_ok_filled.1 h
  rw [hblocks]
  exact ⟨hroom, rfl⟩

theorem Opcode.KeptFrom.size_le (h : op.KeptFrom m source) (hs : s ∈ op.texts) :
    s.utf8ByteSize ≤ source.utf8ByteSize := by
  by_cases hne : s = ""
  · subst hne
    exact Nat.zero_le _
  · exact (h.texts s hs hne).2

theorem fits_of_assemble (h : assemble reserve source = .ok p)
    (hsize : source.utf8ByteSize ≤ maxIndex) : p.Fits := by
  obtain ⟨⟨header, config, hinfo, hheader, hconfig⟩, -⟩ := kept_of_assemble h
  refine ⟨fun s hs => Nat.le_trans ?_ hsize,
    BlockArray.le_maxIndex_of_covers (filled_of_assemble h).1⟩
  have hs : s ∈ header.texts ∨ s ∈ config.texts := by simpa [Info.texts, hinfo] using hs
  exact hs.elim hheader.size_le hconfig.size_le

theorem Opcode.KeptFrom.written (h : op.KeptFrom m source) : op.spelledOut.Written := by
  obtain ⟨haxis, ⟨hnames, w, hmeans⟩, htexts⟩ := h
  have hargument {arg : Option String} {n : UInt32} (hsub : ∀ s ∈ arg, s ∈ op.texts)
      (harg : readNumber arg = .ok n) : ∃ s, some (arg.getD "0") = some s ∧ IsSymbol s := by
    refine ⟨_, rfl, ?_⟩
    -- No number is read from an empty text, so an argument that is kept has a word to it.
    cases arg with
    | none => exact ⟨isWord_of_isAlphanum (by decide) rfl, by decide⟩
    | some s =>
      refine (htexts s (hsub s rfl) ?_).1
      rintro rfl
      cases harg
  refine ⟨?_, ?_, ?_⟩
  · rw [show op.spelledOut.axis = .info from haxis]
    decide
  · obtain ⟨symbol, hsymbol, hm⟩ := Option.bind_eq_some_iff.1 (Opcode.names_iff.1 hnames)
    refine ⟨symbol, hsymbol, (htexts symbol (by simp [Opcode.texts, hsymbol]) ?_).1⟩
    rintro rfl
    cases hm
  · have h0 := hargument (by simp +contextual [Opcode.texts]) hmeans.rate
    have h1 := hargument (by simp +contextual [Opcode.texts]) hmeans.count
    have h2 := hargument (by simp +contextual [Opcode.texts]) hmeans.width
    simp only [Opcode.args, Opcode.spelledOut, List.mem_cons, List.not_mem_nil, or_false]
    rintro arg (rfl | rfl | rfl)
    exacts [h0, h1, h2]

theorem declares_spelledOut (h : op.Declares m) : op.spelledOut.Declares m := by
  obtain ⟨hnames, w, hmeans⟩ := h
  have hsame : op.spelledOut.Names m := hnames
  refine ⟨hsame, w, (compileOpcode_eq_ok hsame).1 ?_⟩
  rw [compileOpcode_spelledOut]
  exact (compileOpcode_eq_ok hnames).2 hmeans

theorem written_of_assemble (h : assemble reserve source = .ok p) :
    Program.Written ⟨p.info.spelledOut, p.blocks⟩ := by
  obtain ⟨⟨header, config, hinfo, hheader, hconfig⟩, hmotion⟩ := kept_of_assemble h
  refine ⟨⟨header.spelledOut, config.spelledOut, ?_, ?_, ?_⟩, hmotion⟩
  · rw [hinfo]
    rfl
  · exact ⟨hheader.written, hheader.axis, declares_spelledOut hheader.declares⟩
  · exact ⟨hconfig.written, hconfig.axis, declares_spelledOut hconfig.declares⟩

theorem Program.Lists.listing {rows : List (List String)} (h : p.Lists rows) :
    Listing.program p = .ok (String.join ((rows.map Listing.line).map (· ++ "\n"))) := by
  rw [Listing.program, h.listed]
  rfl

theorem Program.Written.reassembles (h : p.Written) (hroom : reserve.Covers p.blocks.length)
    (hfilled : p.blocks = .filled p.blocks.toList) :
    ∃ text, Listing.program p = .ok text ∧
      (assemble reserve text = .ok p ↔ p.blocks.length + 2 < UInt32.size) := by
  obtain ⟨rows, hrows⟩ := h.exists_lists
  obtain ⟨ps, ss, hreads, hss, hdenotes⟩ := hrows.denotes
  have hlength : p.blocks.toList.length = p.blocks.length := rfl
  have hcount : rows.length ≤ Assembler.maxLine ↔ p.blocks.length + 2 < UInt32.size := by
    rw [hrows.length]
    simp only [Assembler.maxLine, UInt32.size]
    omega
  refine ⟨_, hrows.listing, ?_⟩
  rw [assemble_eq_ok_filled, tokensOf_sourceLines_join hrows.isRow, sourceLines_join hrows.isRow,
    List.length_map, hcount, and_iff_left_iff_imp]
  exact fun _ => ⟨ps, ss, _, hreads, hss, hdenotes, by rwa [hlength], hfilled⟩

/-- The listing of an assembled program is a source text of the same blocks and of the same lines of
the file's own, with zeros in place of the arguments that had been left out. The numbers are the
same, and so is its listing in turn. Nor does it matter that the program has been stored in
between. Only where there are more blocks than lines can be counted is the listing not read. -/
theorem assemble_listing (reserve : Reserve) (source : String) (p : Program)
    (h : assemble reserve source = .ok p) :
    (∃ text, Listing.program p = .ok text ∧
      (assemble reserve text = .ok ⟨p.info.spelledOut, p.blocks⟩ ↔
        p.blocks.length + 2 < UInt32.size) ∧
      Listing.program ⟨p.info.spelledOut, p.blocks⟩ = .ok text) ∧
    (∀ op ∈ p.info.lines, compileOpcode op.spelledOut = compileOpcode op) ∧
    (p.info.spelledOut = p.info ↔ ∀ op ∈ p.info.lines, none ∉ op.args) ∧
    (source.utf8ByteSize ≤ maxIndex → Image.decode reserve (Image.encode p) = .ok p) := by
  obtain ⟨hroom, hfilled⟩ := filled_of_assemble h
  obtain ⟨text, htext, hagain⟩ := (written_of_assemble h).reassembles hroom hfilled
  have hsame : Listing.program p = .ok text := (listing_spelledOut p.info p.blocks).symm.trans htext
  refine ⟨⟨text, hsame, hagain, htext⟩, fun op _ => compileOpcode_spelledOut op,
    Info.spelledOut_eq_self_iff, fun hsize => ?_⟩
  have hdecode : Image.decode reserve (Image.encode p ++ []) =
      .ok ⟨p.info, .filled p.blocks.toList⟩ :=
    Image.decode_encode (fits_of_assemble h hsize) hroom []
  rwa [List.append_nil, ← hfilled] at hdecode

/-- An octal number is kept as it is in a line of the file's own, and a no-op with a count is listed
as a dwell. -/
theorem assemble_listing_of_dwell :
    let source := "info, Header, 010\nINFO, config,, 0x1F ; kept\n" ++
      "x, ccw, 0x10, 2\n Y, NOP, 0, 010, end"
    let text := "INFO, Header, 010, 0, 0\nINFO, config, 0, 0x1F, 0\n" ++
      "begin, X, CCW, 16, 2, 0, Y, NOP, 0, 0, 0, Z, NOP, 0, 0, 0, A, NOP, 0, 0, 0, end\n" ++
      "begin, X, NOP, 0, 0, 0, Y, DWELL, 0, 8, 0, Z, NOP, 0, 0, 0, A, NOP, 0, 0, 0, end\n"
    let info : Info := ⟨some (.ofArgs .info "Header" [some "010"]),
      some (.ofArgs .info "config" [none, some "0x1F"])⟩
    let blocks : List Block :=
      [{ x := { instruction := 2, rate := 16, count := 2 } }, { y := { count := 8 } }]
    let p : Program := ⟨info, .filled blocks⟩
    let reserve : Reserve := fun _ => true
    assemble reserve source = .ok p ∧ Listing.program p = .ok text ∧
      assemble reserve text = .ok ⟨info.spelledOut, p.blocks⟩ ∧ info.spelledOut ≠ info ∧
      Image.decode reserve (Image.encode p) = .ok p := by
  intro source text info blocks p reserve
  have h : assemble reserve source = .ok p := by decide +kernel
  have hlisting : Listing.program p = .ok text := by decide +kernel
  obtain ⟨⟨text', htext, hagain, -⟩, -, hspelled, hstored⟩ := assemble_listing reserve source p h
  obtain rfl : text = text' := Except.ok.inj (hlisting.symm.trans htext)
  refine ⟨h, hlisting, hagain.2 (by decide), fun hsame => ?_, hstored (by decide)⟩
  have hnone := hspelled.1 hsame _ (List.mem_cons_self ..)
  simp [Opcode.args, Opcode.ofArgs] at hnone

def Opcode.declaration (m : Mnemonic) : Opcode :=
  .ofArgs .info m.name [some "0", some "0", some "0"]

def emptyBlocks (n : Nat) : List String := (List.replicate n ["begin", "end"]).flatten

def emptyRows (n : Nat) : List (List String) :=
  [(Opcode.declaration .header).words, (Opcode.declaration .config).words, emptyBlocks n]

def emptyProgram (n : Nat) : Program :=
  ⟨⟨some (.declaration .header), some (.declaration .config)⟩, .filled (List.replicate n {})⟩

theorem Opcode.declaration_written (m : Mnemonic) : (Opcode.declaration m).Written := by
  have hzero : IsSymbol "0" := isSymbol_repr 0
  refine ⟨by simp [declaration, ofArgs, Axis.nameable], ⟨m.name, rfl, isSymbol_name m⟩, ?_⟩
  rintro arg harg
  simp only [Opcode.args, Opcode.declaration, Opcode.ofArgs, List.mem_cons,
    List.not_mem_nil] at harg
  rcases harg with rfl | rfl | rfl | h
  · exact ⟨"0", rfl, hzero⟩
  · exact ⟨"0", rfl, hzero⟩
  · exact ⟨"0", rfl, hzero⟩
  · cases h

theorem Opcode.declaration_declares (m : Mnemonic) : (Opcode.declaration m).Declares m := by
  have hnames : (Opcode.declaration m).Names m := ⟨m.name, rfl, Text.sameName_refl _⟩
  have hzero : readNumber (some "0") = .ok 0 := by decide
  exact ⟨hnames, { instruction := m.instruction.code }, ⟨m, hnames, rfl⟩, hzero, hzero, hzero⟩

theorem emptyProgram_written (n : Nat) : (emptyProgram n).Written where
  lines := ⟨.declaration .header, .declaration .config, rfl,
    ⟨Opcode.declaration_written _, rfl, Opcode.declaration_declares _⟩,
    Opcode.declaration_written _, rfl, Opcode.declaration_declares _⟩
  motion b hb := by
    obtain rfl : b = {} := List.eq_of_mem_replicate hb
    intro axis w hw
    cases axis <;> cases hw <;> exact .inl rfl

theorem reads_emptyBlocks (n : Nat) (hrest : Reads ls ps) :
    Reads ((emptyBlocks n).map .word ++ ls)
      ((List.replicate n [.opening, .closing]).flatten ++ ps) := by
  induction n with
  | zero => exact hrest
  | succ n ih =>
    have hend : Reads _ _ := .single (l := .word "end") (p := .closing) rfl ih
    exact .single (l := .word "begin") (p := .opening) rfl hend

theorem sections_emptyBlocks (n : Nat) (hrest : Sections ss ps) :
    Sections (List.replicate n (.block []) ++ ss)
      ((List.replicate n [.opening, .closing]).flatten ++ ps) := by
  induction n with
  | zero => exact hrest
  | succ n ih => exact .explicit (.close (.inl rfl)) ih

theorem denotes_emptyBlocks (n : Nat) :
    List.Forall₂ Block.Denotes (List.replicate n {}) (List.replicate n []) := by
  induction n with
  | zero => exact .nil
  | succ n ih =>
    refine .cons ⟨.nil, by simp, fun axis w hw _ => ?_⟩ ih
    cases axis <;> cases hw <;> rfl

theorem isRow_emptyRows {n : Nat} (hn : 0 < n) : ∀ row ∈ emptyRows n, IsRow row := by
  have hwords : ∀ token ∈ emptyBlocks n, IsWord token := by
    intro token htoken
    obtain ⟨row, hrow, htoken⟩ := List.mem_flatten.1 htoken
    obtain rfl := List.eq_of_mem_replicate hrow
    simp only [List.mem_cons, List.not_mem_nil, or_false] at htoken
    rcases htoken with rfl | rfl <;> exact isWord_of_isAlphanum (by decide) rfl
  have hne : emptyBlocks n ≠ [] := by
    obtain ⟨k, rfl⟩ := Nat.exists_eq_succ_of_ne_zero (Nat.ne_of_gt hn)
    exact List.cons_ne_nil _ _
  exact List.forall_mem_cons.2 ⟨(Opcode.declaration_written _).isRow,
    List.forall_mem_cons.2 ⟨(Opcode.declaration_written _).isRow,
      List.forall_mem_singleton.2 ⟨hne, hwords⟩⟩⟩

theorem assemble_emptyRows {n : Nat} (hn : 0 < n) (hcovers : reserve.Covers n) :
    assemble reserve (String.join (((emptyRows n).map Listing.line).map (· ++ "\n"))) =
      .ok (emptyProgram n) := by
  have hend {ls : List Lexeme} {ps : List Piece} (h : Reads ls ps) :
      Reads (.lineEnd :: ls) (.lineEnd :: ps) := .single rfl h
  have hconfig := (Opcode.declaration_written .config).reads
    (hend (reads_emptyBlocks n (hend .nil)))
  have hreads := (Opcode.declaration_written .header).reads (hend hconfig)
  have hblocks := sections_emptyBlocks n (.lineEnd .nil)
  have hsections := Sections.info rfl (.inl (Opcode.declaration_declares .header).1) (.lineEnd
    (Sections.info rfl (.inr (Opcode.declaration_declares .config).1) (.lineEnd hblocks)))
  refine assemble_eq_ok_filled.2 ⟨?_, _, _, List.replicate n {}, ?_, hsections, ?_, ?_, rfl⟩
  · rw [sourceLines_join (isRow_emptyRows hn), List.length_map]
    exact (by decide : 3 ≤ Assembler.maxLine)
  · rw [tokensOf_sourceLines_join (isRow_emptyRows hn)]
    simpa [lexemesOf, emptyRows] using hreads
  · refine ⟨_, _, List.replicate n [], rfl, Opcode.declaration_declares _,
      Opcode.declaration_declares _, .inl (by rw [List.map_replicate, List.append_nil]), ?_⟩
    exact denotes_emptyBlocks n
  · rwa [List.length_replicate]

/-- A line can hold more blocks than there are lines to list them on, and then the listing is not
read. -/
theorem assemble_listing_not_beyond_lines :
    let any : Reserve := fun _ => true
    let source := String.join (((emptyRows UInt32.size).map Listing.line).map (· ++ "\n"))
    ∃ p text, assemble any source = .ok p ∧ p.blocks.length = UInt32.size ∧
      Listing.program p = .ok text ∧ ∀ q, assemble any text ≠ .ok q := by
  intro any source
  have hlength : (emptyProgram UInt32.size).blocks.length = UInt32.size := by
    simp [emptyProgram, BlockArray.filled, BlockArray.length]
  have hcovers : any.Covers UInt32.size := by
    intro k hk
    simp only [growthsFor, UInt32.size] at hk
    refine ⟨?_, rfl⟩
    simp only [maxIndex, UInt64.size]
    omega
  obtain ⟨rows, hrows⟩ := (emptyProgram_written UInt32.size).exists_lists
  refine ⟨emptyProgram UInt32.size, _, assemble_emptyRows (by decide) hcovers, hlength,
    hrows.listing, fun q hq => ?_⟩
  obtain ⟨hcount, -⟩ := assemble_eq_ok_filled.1 hq
  rw [sourceLines_join hrows.isRow, List.length_map, hrows.length, hlength] at hcount
  simp only [Assembler.maxLine, UInt32.size] at hcount
  omega

end PulseMill
