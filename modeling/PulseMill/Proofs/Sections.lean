import PulseMill.Proofs.Pieces
set_option autoImplicit false

/-!
The sections of a source text: lines of the file's own, and blocks. For each place in the
text there is a grammar of what may still follow, and the assembler keeps to it at every step.
-/

namespace PulseMill

inductive Section where
  | info (op : Opcode)
  | block (ops : List Opcode)

def Piece.Ends (p : Piece) (mode : Mode) : Prop :=
  p = .closing ∨ p = .lineEnd ∧ mode = .implicit

/-- What stands in a block from some place on: its tuples, and the text behind its end. -/
inductive Body (mode : Mode) : List Opcode → List Piece → List Piece → Prop where
  | close {p : Piece} {ps : List Piece} : p.Ends mode → Body mode [] (p :: ps) ps
  | blank {ops : List Opcode} {ps rest : List Piece} :
      Body mode ops ps rest → Body mode ops (.blank :: ps) rest
  | lineEnd {ops : List Opcode} {ps rest : List Piece} :
      mode = .explicit → Body mode ops ps rest → Body mode ops (.lineEnd :: ps) rest
  | motion {op : Opcode} {ops : List Opcode} {ps rest : List Piece} :
      op.Moves → Body mode ops ps rest → Body mode (op :: ops) (.tuple op :: ps) rest

inductive Sections : List Section → List Piece → Prop where
  | nil : Sections [] []
  | blank {ss : List Section} {ps : List Piece} : Sections ss ps → Sections ss (.blank :: ps)
  | lineEnd {ss : List Section} {ps : List Piece} : Sections ss ps → Sections ss (.lineEnd :: ps)
  | info {op : Opcode} {ss : List Section} {ps : List Piece} :
      op.axis = .info → op.Names .header ∨ op.Names .config →
      Sections ss ps → Sections (.info op :: ss) (.tuple op :: ps)
  | explicit {ops : List Opcode} {ss : List Section} {ps rest : List Piece} :
      Body .explicit ops ps rest → Sections ss rest →
      Sections (.block ops :: ss) (.opening :: ps)
  | implicit {op : Opcode} {ops : List Opcode} {ss : List Section} {ps rest : List Piece} :
      op.Moves → Body .implicit ops ps rest → Sections ss rest →
      Sections (.block (op :: ops) :: ss) (.tuple op :: ps)

/-- The tuples go to the slots of their axes, each to one that is free. -/
inductive Fills : Slots → List Opcode → Slots → Prop where
  | nil (s : Slots) : Fills s [] s
  | cons {s t : Slots} {op : Opcode} {ops : List Opcode} :
      s.holds op.axis = false → Fills (s.set op.axis op) ops t → Fills s (op :: ops) t

inductive Grows (reserve : Reserve) : Program → Section → Program → Prop where
  | info {p : Program} {op : Opcode} {w : AxisWords} {info : Info} :
      Assembly.compileOpcode op = .ok w → p.info.Adds op info →
      Grows reserve p (.info op) { p with info }
  | block {p : Program} {ops : List Opcode} {slots : Slots} {block : Block}
      {blocks : BlockArray Block} :
      p.info.isComplete → Fills {} ops slots → Assembly.compileBlock slots = .ok block →
      p.blocks.push reserve block = .ok blocks → Grows reserve p (.block ops) { p with blocks }

inductive GrowsAll (reserve : Reserve) : Program → List Section → Program → Prop where
  | nil (p : Program) : GrowsAll reserve p [] p
  | cons {p q r : Program} {s : Section} {ss : List Section} :
      Grows reserve p s q → GrowsAll reserve q ss r → GrowsAll reserve p (s :: ss) r

/-- Between two sections the text makes `q` out of `p`. -/
def Parses (reserve : Reserve) (p : Program) (ps : List Piece) (q : Program) : Prop :=
  ∃ ss, Sections ss ps ∧ GrowsAll reserve p ss q

def Closes (reserve : Reserve) (mode : Mode) (slots : Slots) (p : Program) (ps : List Piece)
    (q : Program) : Prop :=
  ∃ ops rest filled block blocks, Body mode ops ps rest ∧ Fills slots ops filled ∧
    Assembly.compileBlock filled = .ok block ∧ p.blocks.push reserve block = .ok blocks ∧
    Parses reserve { p with blocks } rest q

variable {reserve : Reserve} {p q : Program} {ps : List Piece} {mode : Mode} {slots : Slots}
  {op : Opcode}

theorem parses_nil : Parses reserve p [] q ↔ p = q := by
  constructor
  · intro h
    obtain ⟨ss, hss, hgrows⟩ := h
    cases hss
    cases hgrows
    rfl
  · intro h
    obtain rfl := h
    exact ⟨[], .nil, .nil p⟩

theorem parses_blank : Parses reserve p (.blank :: ps) q ↔ Parses reserve p ps q := by
  constructor
  · intro h
    obtain ⟨ss, hss, hgrows⟩ := h
    cases hss with
    | blank hss => exact ⟨ss, hss, hgrows⟩
  · intro h
    obtain ⟨ss, hss, hgrows⟩ := h
    exact ⟨ss, .blank hss, hgrows⟩

theorem parses_lineEnd : Parses reserve p (.lineEnd :: ps) q ↔ Parses reserve p ps q := by
  constructor
  · intro h
    obtain ⟨ss, hss, hgrows⟩ := h
    cases hss with
    | lineEnd hss => exact ⟨ss, hss, hgrows⟩
  · intro h
    obtain ⟨ss, hss, hgrows⟩ := h
    exact ⟨ss, .lineEnd hss, hgrows⟩

theorem parses_opening :
    Parses reserve p (.opening :: ps) q ↔
      p.info.isComplete ∧ Closes reserve .explicit {} p ps q := by
  constructor
  · intro h
    obtain ⟨ss, hss, hgrows⟩ := h
    cases hss with
    | explicit hbody hss =>
      cases hgrows with
      | cons hgrows hmore =>
        cases hgrows with
        | block hinfo hfills hblock hpush =>
          exact ⟨hinfo, _, _, _, _, _, hbody, hfills, hblock, hpush, _, hss, hmore⟩
  · intro h
    obtain ⟨hinfo, ops, rest, filled, block, blocks, hbody, hfills, hblock, hpush, ss, hss, hmore⟩
        := h
    exact ⟨_, .explicit hbody hss, .cons (.block hinfo hfills hblock hpush) hmore⟩

theorem not_parses_closing : ¬ Parses reserve p (.closing :: ps) q := by
  intro h
  obtain ⟨ss, hss, -⟩ := h
  cases hss

theorem Info.Adds.names {i j : Info} (h : i.Adds op j) : op.Names .header ∨ op.Names .config :=
  h.imp And.left And.left

theorem parses_tuple :
    Parses reserve p (.tuple op :: ps) q ↔
      op.axis = .info ∧ (∃ w info, Assembly.compileOpcode op = .ok w ∧ p.info.Adds op info ∧
        Parses reserve { p with info } ps q) ∨
      op.Moves ∧ p.info.isComplete ∧
        Closes reserve .implicit (Slots.set {} op.axis op) p ps q := by
  constructor
  · intro h
    obtain ⟨ss, hss, hgrows⟩ := h
    cases hss with
    | info haxis _ hss =>
      cases hgrows with
      | cons hgrows hmore =>
        cases hgrows with
        | info hw hadds => exact .inl ⟨haxis, _, _, hw, hadds, _, hss, hmore⟩
    | implicit hmoves hbody hss =>
      cases hgrows with
      | cons hgrows hmore =>
        cases hgrows with
        | block hinfo hfills hblock hpush =>
          cases hfills with
          | cons _ hfills =>
            exact .inr ⟨hmoves, hinfo, _, _, _, _, _, hbody, hfills, hblock, hpush, _, hss, hmore⟩
  · intro h
    rcases h with ⟨haxis, w, info, hw, hadds, ss, hss, hmore⟩ |
      ⟨hmoves, hinfo, ops, rest, filled, block, blocks, hbody, hfills, hblock, hpush, ss, hss,
        hmore⟩
    · exact ⟨_, .info haxis hadds.names hss, .cons (.info hw hadds) hmore⟩
    · have hfree : Slots.holds {} op.axis = false := by cases op.axis <;> rfl
      exact ⟨_, .implicit hmoves hbody hss, .cons (.block hinfo (.cons hfree hfills) hblock hpush)
        hmore⟩

theorem not_closes_nil : ¬ Closes reserve mode slots p [] q := by
  intro h
  obtain ⟨ops, rest, filled, block, blocks, hbody, -⟩ := h
  cases hbody

theorem closes_blank :
    Closes reserve mode slots p (.blank :: ps) q ↔ Closes reserve mode slots p ps q := by
  constructor
  · intro h
    obtain ⟨ops, rest, filled, block, blocks, hbody, hafter⟩ := h
    cases hbody with
    | close hends => simp [Piece.Ends] at hends
    | blank hbody => exact ⟨ops, rest, filled, block, blocks, hbody, hafter⟩
  · intro h
    obtain ⟨ops, rest, filled, block, blocks, hbody, hafter⟩ := h
    exact ⟨ops, rest, filled, block, blocks, .blank hbody, hafter⟩

theorem closes_lineEnd :
    Closes reserve .explicit slots p (.lineEnd :: ps) q ↔
      Closes reserve .explicit slots p ps q := by
  constructor
  · intro h
    obtain ⟨ops, rest, filled, block, blocks, hbody, hafter⟩ := h
    cases hbody with
    | close hends => simp [Piece.Ends] at hends
    | lineEnd _ hbody => exact ⟨ops, rest, filled, block, blocks, hbody, hafter⟩
  · intro h
    obtain ⟨ops, rest, filled, block, blocks, hbody, hafter⟩ := h
    exact ⟨ops, rest, filled, block, blocks, .lineEnd rfl hbody, hafter⟩

theorem closes_end {piece : Piece} (h : piece.Ends mode) :
    Closes reserve mode slots p (piece :: ps) q ↔ ∃ block blocks,
      Assembly.compileBlock slots = .ok block ∧ p.blocks.push reserve block = .ok blocks ∧
        Parses reserve { p with blocks } ps q := by
  constructor
  · intro hgiven
    obtain ⟨ops, rest, filled, block, blocks, hbody, hfills, hafter⟩ := hgiven
    cases hbody with
    | close =>
      cases hfills
      exact ⟨block, blocks, hafter⟩
    | blank => simp [Piece.Ends] at h
    | lineEnd hmode =>
      subst hmode
      simp [Piece.Ends] at h
    | motion => simp [Piece.Ends] at h
  · intro hgiven
    obtain ⟨block, blocks, hafter⟩ := hgiven
    exact ⟨[], ps, slots, block, blocks, .close h, .nil slots, hafter⟩

theorem not_closes_opening : ¬ Closes reserve mode slots p (.opening :: ps) q := by
  intro h
  obtain ⟨ops, rest, filled, block, blocks, hbody, -⟩ := h
  cases hbody with
  | close hends => simp [Piece.Ends] at hends

theorem closes_tuple :
    Closes reserve mode slots p (.tuple op :: ps) q ↔
      op.Moves ∧ slots.holds op.axis = false ∧
        Closes reserve mode (slots.set op.axis op) p ps q := by
  constructor
  · intro h
    obtain ⟨ops, rest, filled, block, blocks, hbody, hfills, hafter⟩ := h
    cases hbody with
    | close hends => simp [Piece.Ends] at hends
    | motion hmoves hbody =>
      cases hfills with
      | cons hfree hfills =>
        exact ⟨hmoves, hfree, _, rest, filled, block, blocks, hbody, hfills, hafter⟩
  · intro h
    obtain ⟨hmoves, hfree, ops, rest, filled, block, blocks, hbody, hfills, hafter⟩ := h
    exact ⟨op :: ops, rest, filled, block, blocks, .motion hmoves hbody, .cons hfree hfills, hafter⟩

namespace Assembler

variable {st : Assembler}

def program (st : Assembler) : Program := ⟨st.info, st.blocks⟩

def Reaches (reserve : Reserve) (st : Assembler) (ps : List Piece) (q : Program) : Prop :=
  ∃ next, TakesAll reserve st ps next ∧ next.mode = .closed ∧ next.program = q

theorem reaches_nil : Reaches reserve st [] q ↔ st.mode = .closed ∧ st.program = q := by
  constructor
  · intro hgiven
    obtain ⟨next, htakes, hnext⟩ := hgiven
    cases htakes
    exact hnext
  · intro h
    exact ⟨st, .nil st, h⟩

theorem reaches_cons {piece : Piece} :
    Reaches reserve st (piece :: ps) q ↔
      ∃ mid, Takes reserve st piece mid ∧ Reaches reserve mid ps q := by
  constructor
  · intro h
    obtain ⟨next, htakes, hnext⟩ := h
    cases htakes with
    | cons htakes hmore => exact ⟨_, htakes, next, hmore, hnext⟩
  · intro h
    obtain ⟨mid, htakes, next, hmore, hnext⟩ := h
    exact ⟨next, .cons htakes hmore, hnext⟩

theorem reaches_close {piece : Piece} {f : Assembler → Assembler}
    (htakes : ∀ next, Takes reserve st piece next ↔
      ∃ mid, st.closeBlock reserve = .ok mid ∧ f mid = next)
    (hf : ∀ mid, (f mid).mode = mid.mode ∧ (f mid).program = mid.program)
    (ih : ∀ next : Assembler, next.mode = .closed →
      (Reaches reserve next ps q ↔ Parses reserve next.program ps q)) :
    Reaches reserve st (piece :: ps) q ↔ ∃ block blocks,
      Assembly.compileBlock st.slots = .ok block ∧ st.blocks.push reserve block = .ok blocks ∧
        Parses reserve ⟨st.info, blocks⟩ ps q := by
  rw [reaches_cons]
  constructor
  · intro h
    obtain ⟨next, hnext, hreaches⟩ := h
    obtain ⟨mid, hclose, rfl⟩ := (htakes next).1 hnext
    obtain ⟨block, blocks, hblock, hpush, rfl⟩ := closeBlock_eq_ok.1 hclose
    rw [ih _ (hf _).1, (hf _).2] at hreaches
    exact ⟨block, blocks, hblock, hpush, hreaches⟩
  · intro h
    obtain ⟨block, blocks, hblock, hpush, hparses⟩ := h
    refine ⟨_, (htakes _).2 ⟨_, closeBlock_eq_ok.2 ⟨block, blocks, hblock, hpush, rfl⟩, rfl⟩, ?_⟩
    rw [ih _ (hf _).1, (hf _).2]
    exact hparses

/-- The assembler takes in the pieces just where the grammar of its place does. -/
structure Agrees (reserve : Reserve) (ps : List Piece) (q : Program) : Prop where
  closed (st : Assembler) : st.mode = .closed →
    (Reaches reserve st ps q ↔ Parses reserve st.program ps q)
  opened (st : Assembler) : st.mode ≠ .closed →
    (Reaches reserve st ps q ↔ Closes reserve st.mode st.slots st.program ps q)

theorem Agrees.cons_closed (h : Agrees reserve ps q) (piece : Piece) (hst : st.mode = .closed) :
    Reaches reserve st (piece :: ps) q ↔ Parses reserve st.program (piece :: ps) q := by
  rw [reaches_cons]
  cases piece with
  | blank =>
    rw [parses_blank, ← h.closed st hst]
    constructor
    · intro hgiven
      obtain ⟨mid, hmid, hreaches⟩ := hgiven
      cases hmid
      exact hreaches
    · intro hreaches
      exact ⟨st, .blank st, hreaches⟩
  | lineEnd =>
    have hadvance : Reaches reserve st.advance ps q ↔ Parses reserve st.program ps q :=
      h.closed st.advance hst
    rw [parses_lineEnd, ← hadvance]
    constructor
    · intro hgiven
      obtain ⟨mid, hmid, hreaches⟩ := hgiven
      cases hmid with
      | lineEnd => exact hreaches
      | endLine himplicit =>
        rw [hst] at himplicit
        cases himplicit
    · intro hreaches
      exact ⟨st.advance, .lineEnd (by simp [hst]), hreaches⟩
  | opening =>
    rw [parses_opening]
    constructor
    · intro hgiven
      obtain ⟨mid, hmid, hreaches⟩ := hgiven
      cases hmid with
      | opening hopen =>
        obtain ⟨hinfo, -, rfl⟩ := openBlock_eq_ok.1 hopen
        exact ⟨hinfo, (h.opened { st.discard with mode := .explicit } (by simp)).1 hreaches⟩
    · intro hgiven
      obtain ⟨hinfo, hcloses⟩ := hgiven
      refine ⟨_, .opening (openBlock_eq_ok.2 ⟨hinfo, hst, rfl⟩), ?_⟩
      exact (h.opened { st.discard with mode := .explicit } (by simp)).2 hcloses
  | closing =>
    refine iff_of_false ?_ not_parses_closing
    intro hgiven
    obtain ⟨mid, hmid, -⟩ := hgiven
    cases hmid with
    | closing hend => exact (endBlock_eq_ok.1 hend).1 hst
  | tuple op =>
    rw [parses_tuple]
    constructor
    · intro hgiven
      obtain ⟨mid, hmid, hreaches⟩ := hgiven
      cases hmid with
      | @info _ w info haxis _ hw hadds =>
        have hmore := h.closed { st with info, progress := .idle } hst
        exact .inl ⟨haxis, w, info, hw, hadds, hmore.1 hreaches⟩
      | motion hmoves hopens _ =>
        rcases hopens with ⟨hopen, -⟩ | hopen
        · exact absurd hst hopen
        · obtain ⟨hinfo, -, rfl⟩ := openBlock_eq_ok.1 hopen
          exact .inr ⟨hmoves, hinfo, (h.opened _ (by simp)).1 hreaches⟩
    · intro hgiven
      rcases hgiven with ⟨haxis, w, info, hw, hadds, hparses⟩ | ⟨hmoves, hinfo, hcloses⟩
      · have hmore := h.closed { st with info, progress := .idle } hst
        exact ⟨_, .info haxis hst hw hadds, hmore.2 hparses⟩
      · have hopen : st.openBlock .implicit = .ok { st.discard with mode := .implicit } :=
          openBlock_eq_ok.2 ⟨hinfo, hst, rfl⟩
        have hfree : Slots.holds {} op.axis = false := by cases op.axis <;> rfl
        exact ⟨_, .motion hmoves (.inr hopen) hfree, (h.opened _ (by simp)).2 hcloses⟩

theorem Agrees.cons_opened (h : Agrees reserve ps q) (piece : Piece) (hst : st.mode ≠ .closed) :
    Reaches reserve st (piece :: ps) q ↔
      Closes reserve st.mode st.slots st.program (piece :: ps) q := by
  cases piece with
  | blank =>
    rw [reaches_cons, closes_blank, ← h.opened st hst]
    constructor
    · intro hgiven
      obtain ⟨mid, hmid, hreaches⟩ := hgiven
      cases hmid
      exact hreaches
    · intro hreaches
      exact ⟨st, .blank st, hreaches⟩
  | lineEnd =>
    by_cases himplicit : st.mode = .implicit
    · rw [closes_end (.inr ⟨rfl, himplicit⟩)]
      refine reaches_close (f := advance) (fun next => ⟨fun htakes => ?_, ?_⟩)
        (fun mid => ⟨rfl, rfl⟩) h.closed
      · cases htakes with
        | lineEnd hnot => exact absurd himplicit hnot
        | endLine _ hclose => exact ⟨_, hclose, rfl⟩
      · intro hgiven
        obtain ⟨mid, hclose, rfl⟩ := hgiven
        exact .endLine himplicit hclose
    · have hexplicit : st.mode = .explicit := by
        cases hmode : st.mode with
        | closed => exact absurd hmode hst
        | explicit => rfl
        | implicit => exact absurd hmode himplicit
      have hadvance : Reaches reserve st.advance ps q ↔
          Closes reserve st.mode st.slots st.program ps q := h.opened st.advance hst
      rw [hexplicit] at hadvance ⊢
      rw [reaches_cons, closes_lineEnd, ← hadvance]
      constructor
      · intro hgiven
        obtain ⟨mid, hmid, hreaches⟩ := hgiven
        cases hmid with
        | lineEnd => exact hreaches
        | endLine hmode => exact absurd hmode himplicit
      · intro hreaches
        exact ⟨st.advance, .lineEnd himplicit, hreaches⟩
  | opening =>
    refine iff_of_false ?_ not_closes_opening
    rw [reaches_cons]
    intro hgiven
    obtain ⟨mid, hmid, -⟩ := hgiven
    cases hmid with
    | opening hopen => exact hst (openBlock_eq_ok.1 hopen).2.1
  | closing =>
    rw [closes_end (.inl rfl)]
    refine reaches_close (f := id) (fun next => ⟨fun htakes => ?_, ?_⟩) (fun mid => ⟨rfl, rfl⟩)
      h.closed
    · cases htakes with
      | closing hend => exact ⟨next, (endBlock_eq_ok.1 hend).2, rfl⟩
    · intro hgiven
      obtain ⟨mid, hclose, rfl⟩ := hgiven
      exact .closing (endBlock_eq_ok.2 ⟨hst, hclose⟩)
  | tuple op =>
    have hmore := h.opened { st with slots := st.slots.set op.axis op, progress := .idle } hst
    rw [reaches_cons, closes_tuple]
    constructor
    · intro hgiven
      obtain ⟨mid, hmid, hreaches⟩ := hgiven
      cases hmid with
      | info _ hclosed => exact absurd hclosed hst
      | motion hmoves hopens hfree =>
        rcases hopens with ⟨-, rfl⟩ | hopen
        · exact ⟨hmoves, hfree, hmore.1 hreaches⟩
        · exact absurd (openBlock_eq_ok.1 hopen).2.1 hst
    · intro hgiven
      obtain ⟨hmoves, hfree, hcloses⟩ := hgiven
      exact ⟨_, .motion hmoves (.inl ⟨hst, rfl⟩) hfree, hmore.2 hcloses⟩

theorem agrees (ps : List Piece) : Agrees reserve ps q := by
  induction ps with
  | nil =>
    refine ⟨fun st hst => ?_, fun st hst => ?_⟩
    · rw [reaches_nil, parses_nil]
      exact and_iff_right hst
    · exact iff_of_false (fun h => hst (reaches_nil.1 h).1) not_closes_nil
  | cons piece ps ih =>
    exact ⟨fun st hst => ih.cons_closed piece hst, fun st hst => ih.cons_opened piece hst⟩

end Assembler

end PulseMill
