import Mathlib.Data.List.Forall2
import PulseMill.Proofs.Sections
set_option autoImplicit false

namespace PulseMill

open Assembly (readNumber compileOpcode compileMotion compileBlock)

structure Opcode.Means (op : Opcode) (w : AxisWords) : Prop where
  instruction : ∃ m, op.Names m ∧ w.instruction = m.instruction.code
  rate : readNumber op.arg0 = .ok w.rate
  count : readNumber op.arg1 = .ok w.count
  width : readNumber op.arg2 = .ok w.width

variable {op : Opcode} {w : AxisWords} {m : Mnemonic}

theorem instructionWord_eq_ok {symbol : String} (h : Mnemonic.ofSymbol? symbol = some m) :
    Assembly.instructionWord symbol = .ok m.instruction.code := by
  simp [Assembly.instructionWord, h]

theorem compileOpcode_eq_ok (h : op.Names m) : compileOpcode op = .ok w ↔ op.Means w := by
  obtain ⟨symbol, hsymbol, hm⟩ := Option.bind_eq_some_iff.1 (Opcode.names_iff.1 h)
  rw [compileOpcode, hsymbol]
  simp only [instructionWord_eq_ok hm, bind_eq_ok, Except.ok.injEq, exists_eq_left', pure,
    Except.pure]
  constructor
  · intro hgiven
    obtain ⟨rate, hrate, count, hcount, width, hwidth, rfl⟩ := hgiven
    exact ⟨⟨m, h, rfl⟩, hrate, hcount, hwidth⟩
  · intro hgiven
    obtain ⟨⟨n, hn, hinstruction⟩, hrate, hcount, hwidth⟩ := hgiven
    obtain rfl := h.unique hn
    exact ⟨w.rate, hrate, w.count, hcount, w.width, hwidth, by rw [← hinstruction]⟩

theorem compileMotion_of_moves (h : op.Moves) : compileMotion op = compileOpcode op := by
  obtain ⟨-, m, hm, hpseudo⟩ := h
  have hnot : op.isPseudo = false := by
    rw [Opcode.isPseudo, Opcode.names_iff.1 hm]
    exact hpseudo
  rw [compileMotion, if_neg (by simp [hnot])]

theorem compileMotion_eq_ok (h : op.Moves) : compileMotion op = .ok w ↔ op.Means w := by
  obtain ⟨m, hm, -⟩ := h.2
  rw [compileMotion_of_moves h, compileOpcode_eq_ok hm]

/-- No axis is named twice, and one that is not named does nothing. -/
structure Block.Denotes (b : Block) (ops : List Opcode) : Prop where
  distinct : (ops.map Opcode.axis).Nodup
  named : ∀ op ∈ ops, ∃ w, b.axis? op.axis = some w ∧ op.Means w
  unnamed : ∀ axis w, b.axis? axis = some w → axis ∉ ops.map Opcode.axis → w = {}

variable {s t : Slots} {ops : List Opcode} {b : Block}

theorem isEmpty_of_names (h : op.Names m) : op.isEmpty = false := by
  obtain ⟨symbol, hsymbol, -⟩ := h
  simp [Opcode.isEmpty, Option.mem_def.1 hsymbol]

theorem get?_isSome_of_isMotion {axis : Axis} (h : axis.isMotion) : (s.get? axis).isSome := by
  cases axis <;> first | rfl | cases h

theorem holds_set_self (h : op.Moves) : (s.set op.axis op).holds op.axis = true := by
  obtain ⟨haxis, m, hm, -⟩ := h
  rw [Slots.holds, Slots.get?_set_self (get?_isSome_of_isMotion haxis)]
  simp [isEmpty_of_names hm]

theorem holds_set_of_ne {axis other : Axis} (h : other ≠ axis) :
    (s.set axis op).holds other = s.holds other := by
  rw [Slots.holds, Slots.holds, Slots.get?_set_of_ne h]

theorem Fills.get?_of_not_mem {axis : Axis} (h : Fills s ops t)
    (haxis : axis ∉ ops.map Opcode.axis) : t.get? axis = s.get? axis := by
  induction h with
  | nil => rfl
  | cons _ _ ih =>
    rw [List.map_cons, List.mem_cons, not_or] at haxis
    rw [ih haxis.2, Slots.get?_set_of_ne haxis.1]

theorem Fills.free (h : Fills s ops t) (hops : ∀ op ∈ ops, op.Moves) :
    (ops.map Opcode.axis).Nodup ∧ ∀ op ∈ ops, s.holds op.axis = false := by
  induction h with
  | nil => exact ⟨.nil, by simp⟩
  | @cons s t op ops hfree _ ih =>
    obtain ⟨hop, hmore⟩ := List.forall_mem_cons.1 hops
    obtain ⟨hnodup, hothers⟩ := ih hmore
    have hnew : ∀ other ∈ ops, other.axis ≠ op.axis := by
      intro other hother heq
      have hheld := hothers other hother
      rw [heq, holds_set_self hop] at hheld
      cases hheld
    refine ⟨List.nodup_cons.2 ⟨?_, hnodup⟩, List.forall_mem_cons.2 ⟨hfree, ?_⟩⟩
    · rw [List.mem_map]
      intro hgiven
      obtain ⟨other, hother, heq⟩ := hgiven
      exact hnew other hother heq
    · intro other hother
      rw [← holds_set_of_ne (hnew other hother)]
      exact hothers other hother

theorem Fills.get?_of_mem (h : Fills s ops t) (hops : ∀ op ∈ ops, op.Moves) (hop : op ∈ ops) :
    t.get? op.axis = some op := by
  have hnodup := (h.free hops).1
  induction h with
  | nil => cases hop
  | cons hfree hfills ih =>
    obtain ⟨hfirst, hmore⟩ := List.forall_mem_cons.1 hops
    obtain ⟨hnew, hnodup⟩ := List.nodup_cons.1 hnodup
    rcases List.mem_cons.1 hop with rfl | hop
    · rw [hfills.get?_of_not_mem hnew, Slots.get?_set_self (get?_isSome_of_isMotion hfirst.1)]
    · exact ih hmore hop hnodup

theorem exists_fills (hnodup : (ops.map Opcode.axis).Nodup)
    (hfree : ∀ op ∈ ops, s.holds op.axis = false) : ∃ t, Fills s ops t := by
  induction ops generalizing s with
  | nil => exact ⟨s, .nil s⟩
  | cons op ops ih =>
    obtain ⟨hnew, hnodup⟩ := List.nodup_cons.1 hnodup
    obtain ⟨hop, hmore⟩ := List.forall_mem_cons.1 hfree
    obtain ⟨t, ht⟩ := ih (s := s.set op.axis op) hnodup fun other hother => by
      have hne : other.axis ≠ op.axis := fun heq => hnew (List.mem_map.2 ⟨other, hother, heq⟩)
      rw [holds_set_of_ne hne]
      exact hmore other hother
    exact ⟨t, .cons hop ht⟩

theorem compileBlock_eq_ok :
    compileBlock s = .ok b ↔ ∀ axis op w, s.get? axis = some op → b.axis? axis = some w →
      compileMotion op = .ok w := by
  simp only [compileBlock, bind_eq_ok, pure, Except.pure, Except.ok.injEq]
  constructor
  · rintro ⟨x, hx, y, hy, z, hz, a, ha, rfl⟩ axis op w hop hw
    cases axis <;> first | contradiction | (cases hop; cases hw; assumption)
  · intro h
    exact ⟨b.x, h .x _ _ rfl rfl, b.y, h .y _ _ rfl rfl, b.z, h .z _ _ rfl rfl, b.a,
      h .a _ _ rfl rfl, rfl⟩

theorem denotes_iff (hops : ∀ op ∈ ops, op.Moves) :
    b.Denotes ops ↔ ∃ filled, Fills {} ops filled ∧ compileBlock filled = .ok b := by
  have hwords {axis : Axis} (haxis : axis.isMotion) : ∃ w, b.axis? axis = some w := by
    cases axis <;> first | exact ⟨_, rfl⟩ | cases haxis
  constructor
  · intro h
    obtain ⟨filled, hfills⟩ := exists_fills (s := {}) h.distinct fun op hop => by
      cases op.axis <;> rfl
    refine ⟨filled, hfills, compileBlock_eq_ok.2 fun axis op w hop hw => ?_⟩
    by_cases haxis : axis ∈ ops.map Opcode.axis
    · obtain ⟨other, hother, rfl⟩ := List.mem_map.1 haxis
      rw [hfills.get?_of_mem hops hother] at hop
      obtain rfl : other = op := Option.some.inj hop
      obtain ⟨w', hw', hmeans⟩ := h.named other hother
      obtain rfl : w = w' := Option.some.inj (hw.symm.trans hw')
      exact (compileMotion_eq_ok (hops other hother)).2 hmeans
    · obtain rfl := h.unnamed axis w hw haxis
      rw [hfills.get?_of_not_mem haxis] at hop
      have hempty : op = {} := by
        cases axis <;> first | contradiction | exact (Option.some.inj hop).symm
      rw [hempty, Assembly.compileMotion_empty]
  · intro hgiven
    obtain ⟨filled, hfills, hblock⟩ := hgiven
    have hcompile := compileBlock_eq_ok.1 hblock
    refine ⟨(hfills.free hops).1, fun op hop => ?_, fun axis w hw haxis => ?_⟩
    · obtain ⟨w, hw⟩ := hwords (hops op hop).1
      have hmotion := hcompile _ _ _ (hfills.get?_of_mem hops hop) hw
      exact ⟨w, hw, (compileMotion_eq_ok (hops op hop)).1 hmotion⟩
    · have hempty : filled.get? axis = some {} := by
        rw [hfills.get?_of_not_mem haxis]
        cases axis <;> first | rfl | cases hw
      have hmotion := hcompile _ _ _ hempty hw
      rw [Assembly.compileMotion_empty] at hmotion
      exact (Except.ok.inj hmotion).symm

/-- A line of the file's own whose numbers can be read. -/
def Opcode.Declares (op : Opcode) (m : Mnemonic) : Prop := op.Names m ∧ ∃ w, op.Means w

/-- The header and the configuration come first, in either order, and then the blocks. -/
def DenotesProgram (ss : List Section) (info : Info) (blocks : List Block) : Prop :=
  ∃ header config bodies, info = ⟨some header, some config⟩ ∧
    header.Declares .header ∧ config.Declares .config ∧
    (ss = .info header :: .info config :: bodies.map .block ∨
      ss = .info config :: .info header :: bodies.map .block) ∧
    List.Forall₂ Block.Denotes blocks bodies

def Section.Proper : Section → Prop
  | .info _ => True
  | .block ops => ∀ op ∈ ops, op.Moves

variable {reserve : Reserve} {p q : Program} {ss : List Section} {ps rest : List Piece}

theorem Body.moves {mode : Mode} (h : Body mode ops ps rest) : ∀ op ∈ ops, op.Moves := by
  induction h with
  | close => simp
  | blank _ ih => exact ih
  | lineEnd _ _ ih => exact ih
  | motion hmoves _ ih => exact List.forall_mem_cons.2 ⟨hmoves, ih⟩

theorem Sections.proper (h : Sections ss ps) : ∀ s ∈ ss, s.Proper := by
  induction h with
  | nil => simp
  | blank _ ih => exact ih
  | lineEnd _ ih => exact ih
  | info _ _ _ ih => exact List.forall_mem_cons.2 ⟨trivial, ih⟩
  | explicit hbody _ ih => exact List.forall_mem_cons.2 ⟨hbody.moves, ih⟩
  | implicit hmoves hbody _ ih =>
    exact List.forall_mem_cons.2 ⟨List.forall_mem_cons.2 ⟨hmoves, hbody.moves⟩, ih⟩

theorem Info.Adds.not_isComplete {i j : Info} (h : i.Adds op j) : ¬ i.isComplete := by
  rcases h with ⟨-, hnone, -⟩ | ⟨-, hnone, -⟩ <;> simp [Info.isComplete, hnone]

theorem growsAll_iff_of_complete (hinfo : p.info.isComplete) (hss : ∀ s ∈ ss, s.Proper) :
    GrowsAll reserve p ss q ↔ ∃ bodies blocks, ss = bodies.map .block ∧
      List.Forall₂ Block.Denotes blocks bodies ∧ p.info = q.info ∧
      p.blocks.extend reserve blocks = .ok q.blocks := by
  induction ss generalizing p with
  | nil =>
    constructor
    · intro h
      cases h
      exact ⟨[], [], rfl, .nil, rfl, rfl⟩
    · intro hgiven
      obtain ⟨bodies, blocks, hbodies, hdenotes, hsame, hextend⟩ := hgiven
      obtain rfl := List.map_eq_nil_iff.1 hbodies.symm
      cases hdenotes
      obtain ⟨info, array⟩ := p
      obtain ⟨info', array'⟩ := q
      obtain rfl : info = info' := hsame
      obtain rfl : array = array' := Except.ok.inj hextend
      exact .nil _
  | cons s ss ih =>
    obtain ⟨hs, hmore⟩ := List.forall_mem_cons.1 hss
    constructor
    · intro h
      cases h with
      | cons hgrows hafter =>
        cases hgrows with
        | info _ hadds => exact absurd hinfo hadds.not_isComplete
        | @block ops filled b array _ hfills hblock hpush =>
          obtain ⟨bodies, blocks, rfl, hdenotes, hsame, hextend⟩ :=
            (ih (p := { p with blocks := array }) hinfo hmore).1 hafter
          have hb := (denotes_iff hs).2 ⟨filled, hfills, hblock⟩
          exact ⟨ops :: bodies, b :: blocks, rfl, .cons hb hdenotes, hsame,
            bind_eq_ok.2 ⟨array, hpush, hextend⟩⟩
    · intro hgiven
      obtain ⟨bodies, blocks, hbodies, hdenotes, hsame, hextend⟩ := hgiven
      cases bodies with
      | nil => cases hbodies
      | cons ops bodies =>
        obtain ⟨rfl, rfl⟩ := List.cons_eq_cons.1 hbodies
        cases hdenotes with
        | @cons b _ blocks _ hb hdenotes =>
          obtain ⟨filled, hfills, hblock⟩ := (denotes_iff hs).1 hb
          obtain ⟨array, hpush, hextend⟩ := bind_eq_ok.1 hextend
          have hafter := (ih (p := { p with blocks := array }) hinfo hmore).2
            ⟨bodies, blocks, rfl, hdenotes, hsame, hextend⟩
          exact .cons (.block hinfo hfills hblock hpush) hafter

theorem GrowsAll.info_first (h : GrowsAll reserve p ss q) (hp : ¬ p.info.isComplete)
    (hq : q.info.isComplete) :
    ∃ op w info more, ss = .info op :: more ∧ compileOpcode op = .ok w ∧ p.info.Adds op info ∧
      GrowsAll reserve { p with info } more q := by
  cases h with
  | nil => exact absurd hq hp
  | cons hgrows hmore =>
    cases hgrows with
    | info hw hadds => exact ⟨_, _, _, _, rfl, hw, hadds, hmore⟩
    | block hinfo => exact absurd hinfo hp

theorem growsAll_iff {a : BlockArray Block} (hss : ∀ s ∈ ss, s.Proper) :
    GrowsAll reserve ⟨{}, a⟩ ss q ∧ q.info.isComplete ↔
      ∃ blocks, DenotesProgram ss q.info blocks ∧ a.extend reserve blocks = .ok q.blocks := by
  constructor
  · intro hgiven
    obtain ⟨h, hq⟩ := hgiven
    obtain ⟨first, w, info, more, rfl, hw, hfirst, h⟩ := h.info_first (by simp [Info.isComplete]) hq
    have hone : ¬ info.isComplete := by
      rcases hfirst with ⟨-, -, rfl⟩ | ⟨-, -, rfl⟩ <;> simp [Info.isComplete]
    obtain ⟨second, w', info', more, rfl, hw', hsecond, h⟩ := h.info_first hone hq
    have htwo : info'.isComplete := by
      rcases hfirst with ⟨-, -, rfl⟩ | ⟨-, -, rfl⟩ <;>
        rcases hsecond with ⟨-, hnone, rfl⟩ | ⟨-, hnone, rfl⟩ <;>
        first | rfl | cases hnone
    have hmore := (List.forall_mem_cons.1 (List.forall_mem_cons.1 hss).2).2
    obtain ⟨bodies, blocks, rfl, hdenotes, hsame, hextend⟩ :=
      (growsAll_iff_of_complete htwo hmore).1 h
    refine ⟨blocks, ?_, hextend⟩
    rw [← hsame]
    rcases hfirst with ⟨hn, -, rfl⟩ | ⟨hn, -, rfl⟩ <;>
      rcases hsecond with ⟨hn', hnone, rfl⟩ | ⟨hn', hnone, rfl⟩
    · cases hnone
    · exact ⟨first, second, bodies, rfl, ⟨hn, w, (compileOpcode_eq_ok hn).1 hw⟩,
        ⟨hn', w', (compileOpcode_eq_ok hn').1 hw'⟩, .inl rfl, hdenotes⟩
    · exact ⟨second, first, bodies, rfl, ⟨hn', w', (compileOpcode_eq_ok hn').1 hw'⟩,
        ⟨hn, w, (compileOpcode_eq_ok hn).1 hw⟩, .inr rfl, hdenotes⟩
    · cases hnone
  · intro hgiven
    obtain ⟨blocks, ⟨header, config, bodies, hinfo, ⟨hheader, w, hw⟩, ⟨hconfig, w', hw'⟩,
        hsections, hdenotes⟩, hextend⟩ := hgiven
    have hw := (compileOpcode_eq_ok hheader).2 hw
    have hw' := (compileOpcode_eq_ok hconfig).2 hw'
    have hmore : ∀ s ∈ bodies.map Section.block, s.Proper := by
      rcases hsections with rfl | rfl <;>
        exact (List.forall_mem_cons.1 (List.forall_mem_cons.1 hss).2).2
    have hblocks : GrowsAll reserve ⟨⟨some header, some config⟩, a⟩ (bodies.map .block) q :=
      (growsAll_iff_of_complete rfl hmore).2 ⟨bodies, blocks, rfl, hdenotes, hinfo.symm, hextend⟩
    refine ⟨?_, by rw [hinfo]; rfl⟩
    rcases hsections with rfl | rfl
    · exact .cons (.info hw (.inl ⟨hheader, rfl, rfl⟩))
        (.cons (.info hw' (.inr ⟨hconfig, rfl, rfl⟩)) hblocks)
    · exact .cons (.info hw' (.inr ⟨hconfig, rfl, rfl⟩))
        (.cons (.info hw (.inl ⟨hheader, rfl, rfl⟩)) hblocks)

end PulseMill
