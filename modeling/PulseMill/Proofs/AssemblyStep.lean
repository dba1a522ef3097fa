import PulseMill.Assembly.Assembler
set_option autoImplicit false

namespace PulseMill

def Opcode.Names (op : Opcode) (m : Mnemonic) : Prop :=
  ∃ symbol ∈ op.mnemonic, Text.sameName m.name symbol

theorem Opcode.names_iff {op : Opcode} {m : Mnemonic} :
    op.Names m ↔ op.mnemonic.bind Mnemonic.ofSymbol? = some m := by
  simp only [Names, Option.bind_eq_some_iff, Mnemonic.ofSymbol?_eq_some_iff, Option.mem_def]

theorem Opcode.Names.unique {op : Opcode} {m n : Mnemonic} (h : op.Names m) (k : op.Names n) :
    m = n := Option.some.inj ((names_iff.1 h).symm.trans (names_iff.1 k))

/-- A line of the file's own comes in addition to those before it. -/
def Info.Adds (i : Info) (op : Opcode) (j : Info) : Prop :=
  op.Names .header ∧ i.header = none ∧ { i with header := some op } = j ∨
  op.Names .config ∧ i.config = none ∧ { i with config := some op } = j

theorem bind_eq_ok {ε α β : Type} {x : Except ε α} {f : α → Except ε β} {b : β} :
    (x >>= f) = .ok b ↔ ∃ a, x = .ok a ∧ f a = .ok b := by
  cases x <;> simp [bind, Except.bind]

namespace Assembler

variable {reserve : Reserve} {st mid next : Assembler}

theorem refuse_ne_ok (f : Assembly.Fault) : st.refuse f ≠ .ok next := nofun

theorem openBlock_eq_ok {mode : Mode} :
    st.openBlock mode = .ok next ↔
      st.info.isComplete ∧ st.mode = .closed ∧ { st.discard with mode } = next := by
  unfold openBlock isOpen
  constructor
  · intro h
    split at h
    · cases h
    · split at h
      · cases h
      · cases h
        simp_all
  · intro hgiven
    obtain ⟨hinfo, hmode, rfl⟩ := hgiven
    simp [hinfo, hmode]

theorem closeBlock_eq_ok :
    st.closeBlock reserve = .ok next ↔ ∃ block blocks,
      Assembly.compileBlock st.slots = .ok block ∧ st.blocks.push reserve block = .ok blocks ∧
        { st with blocks }.discard = next := by
  unfold closeBlock
  constructor
  · intro h
    split at h
    · cases h
    · split at h
      · cases h
      · cases h
        exact ⟨_, _, ‹_›, ‹_›, rfl⟩
  · intro hgiven
    obtain ⟨block, blocks, hblock, hblocks, rfl⟩ := hgiven
    simp [hblock, hblocks]

theorem endBlock_eq_ok :
    st.endBlock reserve = .ok next ↔ st.mode ≠ .closed ∧ st.closeBlock reserve = .ok next := by
  unfold endBlock isOpen
  by_cases hmode : st.mode = .closed
  · simp [hmode, refuse_ne_ok]
  · simp [hmode]

/-- Where no block is open, a motion opens one that ends with its line. -/
def Opens (st mid : Assembler) : Prop :=
  st.mode ≠ .closed ∧ st = mid ∨ st.openBlock .implicit = .ok mid

def selectAxis (axis : Axis) (st : Assembler) : Step :=
  if st.slots.holds axis then st.refuse .duplicateAxis else .ok { st with progress := .axis axis }

theorem selectAxis_eq_ok {axis : Axis} :
    st.selectAxis axis = .ok next ↔
      st.slots.holds axis = false ∧ { st with progress := .axis axis } = next := by
  unfold selectAxis
  cases st.slots.holds axis <;> simp [refuse]

theorem startMotion_eq_ok {axis : Axis} :
    (if st.isOpen then .ok st >>= selectAxis axis
      else st.openBlock .implicit >>= selectAxis axis) = (.ok next : Step) ↔
    ∃ mid, st.Opens mid ∧ mid.slots.holds axis = false ∧
      { mid with progress := .axis axis } = next := by
  simp only [← selectAxis_eq_ok]
  by_cases hmode : st.mode = .closed
  · have hopens (mid : Assembler) : st.Opens mid ↔ st.openBlock .implicit = .ok mid := by
      simp [Opens, hmode]
    simp only [hopens, ← bind_eq_ok]
    rw [if_neg (by simp [isOpen, hmode])]
  · have hopens (mid : Assembler) : st.Opens mid ↔ st = mid := by
      have hnot : st.openBlock .implicit ≠ .ok mid := fun h => hmode (openBlock_eq_ok.1 h).2.1
      simp [Opens, hmode, hnot]
    simp only [hopens, exists_eq_left']
    rw [if_pos (by simp [isOpen, hmode])]
    rfl

theorem startTuple_eq_ok {token : String} :
    st.startTuple token = .ok next ↔
      Axis.ofSymbol token = .info ∧ st.mode = .closed ∧ { st with progress := .axis .info } = next ∨
      (Axis.ofSymbol token).isMotion ∧ ∃ mid, st.Opens mid ∧
        mid.slots.holds (Axis.ofSymbol token) = false ∧
        { mid with progress := .axis (Axis.ofSymbol token) } = next := by
  unfold startTuple
  cases haxis : Axis.ofSymbol token
  case x | y | z | a =>
    simp only [Axis.isMotion, reduceCtorEq, false_and, false_or, true_and]
    exact startMotion_eq_ok
  case info =>
    by_cases hmode : st.mode = .closed
    · simp [isOpen, hmode, Axis.isMotion]
    · simp [isOpen, hmode, Axis.isMotion, refuse]
  all_goals simp [Axis.isMotion, refuse]

theorem setMnemonic_eq_ok {axis : Axis} {token : String} :
    st.setMnemonic axis token = .ok next ↔ ∃ m, Mnemonic.ofSymbol? token = some m ∧
      (axis = .info ∧ m.isPseudo ∨ axis.isMotion ∧ m.isPseudo = false) ∧
      { st with progress := .tuple axis token [] } = next := by
  unfold setMnemonic
  cases Mnemonic.ofSymbol? token with
  | none => simp [refuse]
  | some m =>
    by_cases hinfo : axis = .info
    · subst hinfo
      cases hpseudo : m.isPseudo
      · simp [hpseudo, Axis.isMotion, refuse]
      · simp [hpseudo, Axis.isMotion]
    · cases haxis : axis.isMotion <;> cases hpseudo : m.isPseudo
      case true.false => simp [hinfo, hpseudo]
      all_goals simp [hinfo, hpseudo, refuse]

theorem setInfo_eq_ok {op : Opcode} :
    st.setInfo op = .ok next ↔ ∃ w info, Assembly.compileOpcode op = .ok w ∧
      st.info.Adds op info ∧ { st with info, progress := .idle } = next := by
  unfold setInfo Info.Adds
  simp only [Opcode.names_iff]
  cases Assembly.compileOpcode op with
  | error f => simp [refuse]
  | ok w =>
    cases op.mnemonic.bind Mnemonic.ofSymbol? with
    | none => simp [refuse]
    | some m =>
      cases m
      case header =>
        cases st.info.header <;> simp [refuse]
      case config =>
        cases st.info.config <;> simp [refuse]
      all_goals simp [refuse]

theorem complete_eq_ok {op : Opcode} :
    st.complete op = .ok next ↔ op.axis = .info ∧ st.setInfo op = .ok next ∨
      op.axis.isMotion ∧
        { st with slots := st.slots.set op.axis op, progress := .idle } = next := by
  unfold complete
  by_cases hinfo : op.axis = .info
  · simp [hinfo, Axis.isMotion]
  · cases op.axis.isMotion <;> simp [hinfo, refuse]

end Assembler

end PulseMill
