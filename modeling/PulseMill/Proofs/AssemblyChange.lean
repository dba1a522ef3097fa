import PulseMill.Proofs.Acceptance
set_option autoImplicit false

namespace PulseMill

open Assembly (Fault readNumber compileOpcode compileMotion compileBlock)

namespace Assembly

/-- If something is wrong, it is not the state of the assembler. -/
def Possible {α : Type} (x : Except Fault α) : Prop := x ≠ .error .malformedAxisState

variable {α β : Type}

theorem Possible.bind {x : Except Fault α} {f : α → Except Fault β} (h : Possible x)
    (k : ∀ a, Possible (f a)) : Possible (x >>= f) := by
  cases x with
  | error e => exact fun heq => h (congrArg _ (Except.error.inj heq))
  | ok a => exact k a

theorem readNumber_possible (arg : Option String) : Possible (readNumber arg) := by
  cases arg with
  | none => nofun
  | some s =>
    simp only [readNumber, readNumeral]
    split
    · nofun
    · split
      · nofun
      · split
        · nofun
        · split <;> nofun

theorem compileOpcode_possible (op : Opcode) : Possible (compileOpcode op) := by
  unfold compileOpcode
  split
  · nofun
  · refine .bind ?_ fun _ => (readNumber_possible _).bind fun _ =>
      (readNumber_possible _).bind fun _ => (readNumber_possible _).bind fun _ => nofun
    unfold instructionWord
    split <;> nofun

theorem compileMotion_possible (op : Opcode) : Possible (compileMotion op) := by
  unfold compileMotion
  split
  · nofun
  · exact compileOpcode_possible op

theorem compileBlock_possible (s : Slots) : Possible (compileBlock s) :=
  (compileMotion_possible s.x).bind fun _ => (compileMotion_possible s.y).bind fun _ =>
    (compileMotion_possible s.z).bind fun _ => (compileMotion_possible s.a).bind fun _ => nofun

end Assembly

namespace Assembler

variable {reserve : Reserve} {st mid next : Assembler} {axis : Axis} {m : String}
  {args : List (Option String)} {bs cs : List Block}

/-- One change, with the blocks that it appends. -/
inductive Change (reserve : Reserve) : Assembler → List Block → Assembler → Prop where
  | opening {st : Assembler} {mode : Mode} :
      st.info.isComplete → st.mode = .closed → mode ≠ .closed →
      Change reserve st [] { st.discard with mode }
  | selection {st : Assembler} {axis : Axis} :
      axis = .info ∧ st.mode = .closed ∨ axis.isMotion ∧ st.mode ≠ .closed →
      Change reserve st [] { st with progress := .axis axis }
  | naming {st : Assembler} {axis : Axis} {token : String} {m : Mnemonic} :
      st.progress = .axis axis → Mnemonic.ofSymbol? token = some m →
      axis = .info ∧ m.isPseudo ∨ axis.isMotion ∧ m.isPseudo = false →
      Change reserve st [] { st with progress := .tuple axis token [] }
  | argument {st : Assembler} {axis : Axis} {m : String} {args : List (Option String)}
      {arg : Option String} :
      st.progress = .tuple axis m args → args.length < 2 →
      Change reserve st [] { st with progress := .tuple axis m (args ++ [arg]) }
  | info {st : Assembler} {axis : Axis} {m : String} {args more : List (Option String)}
      {w : AxisWords} {info : Info} :
      st.progress = .tuple axis m args → axis = .info →
      compileOpcode (.ofArgs axis m (args ++ more)) = .ok w →
      st.info.Adds (.ofArgs axis m (args ++ more)) info →
      Change reserve st [] { st with info, progress := .idle }
  | motion {st : Assembler} {axis : Axis} {m : String} {args more : List (Option String)} :
      st.progress = .tuple axis m args → axis.isMotion →
      Change reserve st []
        { st with slots := st.slots.set axis (.ofArgs axis m (args ++ more)), progress := .idle }
  | closing {st : Assembler} {block : Block} {blocks : BlockArray Block} :
      st.mode ≠ .closed → compileBlock st.slots = .ok block →
      st.blocks.push reserve block = .ok blocks →
      Change reserve st [block] { st with blocks }.discard

inductive Changes (reserve : Reserve) (st : Assembler) : List Block → Assembler → Prop where
  | refl : Changes reserve st [] st
  | tail {bs cs : List Block} {mid next : Assembler} :
      Changes reserve st bs mid → Change reserve mid cs next → Changes reserve st (bs ++ cs) next

theorem Changes.trans (h : Changes reserve st bs mid) (k : Changes reserve mid cs next) :
    Changes reserve st (bs ++ cs) next := by
  induction k with
  | refl => rwa [List.append_nil]
  | tail _ hlast ih =>
    rw [← List.append_assoc]
    exact ih.tail hlast

theorem Changes.blocks (h : Changes reserve st bs next) :
    next.blocks.toList = st.blocks.toList ++ bs := by
  induction h with
  | refl => exact (List.append_nil _).symm
  | tail _ hlast ih =>
    rw [← List.append_assoc, ← ih]
    cases hlast with
    | closing _ _ hpush => exact BlockArray.toList_push hpush
    | _ => exact (List.append_nil _).symm

theorem Changes.keeps (h : Changes reserve st bs next) : st.Keeps next := by
  induction h with
  | refl => exact ⟨rfl, rfl⟩
  | tail _ hlast ih => cases hlast <;> exact ih

/-- A step ends after changes, well or badly, but never because its state is impossible. It
appends blocks only if it ends well. -/
def Proceeds (reserve : Reserve) (st : Assembler) (bs : List Block) : Step → Prop
  | .ok next => Changes reserve st bs next
  | .error (f, next) => Changes reserve st [] next ∧ f ≠ .malformedAxisState

theorem proceeds_refuse {f : Fault} (hf : f ≠ .malformedAxisState) :
    Proceeds reserve st bs (st.refuse f) := ⟨.refl, hf⟩

theorem Change.proceeds (h : Change reserve st bs next) : Proceeds reserve st bs (.ok next) :=
  Changes.refl.tail h

theorem Proceeds.bind {x : Step} {f : Assembler → Step} (h : Proceeds reserve st [] x)
    (k : ∀ mid, x = .ok mid → Proceeds reserve mid bs (f mid)) :
    Proceeds reserve st bs (x >>= f) := by
  cases x with
  | error e => exact h
  | ok mid =>
    have hfirst : Changes reserve st [] mid := h
    have hnext := k mid rfl
    show Proceeds reserve st bs (f mid)
    cases hf : f mid with
    | ok next =>
      rw [hf] at hnext
      exact hfirst.trans hnext
    | error e =>
      rw [hf] at hnext
      exact ⟨hfirst.trans hnext.1, hnext.2⟩

def endsAt (st : Assembler) : Lexeme → Bool
  | .word token => Keyword.ofSymbol? token = some .closing
  | .lineEnd => st.mode = .implicit

/-- The tuples of the open block, with the one that is being read. -/
def gathered (st : Assembler) : Slots :=
  match st.progress with
  | .tuple axis m args => st.slots.set axis (.ofArgs axis m args)
  | _ => st.slots

def compiled (s : Slots) : List Block := (compileBlock s).toOption.toList

/-- The block that is complete with the lexeme, if one is. -/
def completedBy (st : Assembler) (l : Lexeme) : List Block :=
  if st.endsAt l then compiled st.gathered else []

theorem openBlock_proceeds {mode : Mode} (hmode : mode ≠ .closed) :
    Proceeds reserve st [] (st.openBlock mode) := by
  unfold openBlock
  split
  · exact proceeds_refuse nofun
  · split
    · exact proceeds_refuse nofun
    case isFalse hinfo hopen =>
      exact Change.proceeds (.opening (by simpa using hinfo) (by simpa [isOpen] using hopen) hmode)

theorem closeBlock_proceeds (hmode : st.mode ≠ .closed) :
    Proceeds reserve st (compiled st.slots) (st.closeBlock reserve) := by
  unfold closeBlock compiled
  cases hblock : compileBlock st.slots with
  | error f =>
    exact proceeds_refuse fun hf => Assembly.compileBlock_possible st.slots (hf ▸ hblock)
  | ok block =>
    dsimp only
    split
    · exact proceeds_refuse nofun
    case h_2 blocks hpush => exact Change.proceeds (.closing hmode hblock hpush)

theorem endBlock_proceeds : Proceeds reserve st (compiled st.slots) (st.endBlock reserve) := by
  unfold endBlock
  split
  case isTrue hopen => exact closeBlock_proceeds (by simpa [isOpen] using hopen)
  case isFalse => exact proceeds_refuse (by decide)

theorem ofSymbol_ne_idle (token : String) : Axis.ofSymbol token ≠ .idle := by
  unfold Axis.ofSymbol
  cases h : Axis.nameable.find? fun axis => Text.sameName axis.name token with
  | none => nofun
  | some axis =>
    have hmem := List.mem_of_find?_eq_some h
    rintro rfl
    simp [Axis.nameable] at hmem

theorem selectAxis_proceeds (haxis : axis.isMotion) (hmode : st.mode ≠ .closed) :
    Proceeds reserve st [] (st.selectAxis axis) := by
  unfold selectAxis
  split
  · exact proceeds_refuse nofun
  · exact Change.proceeds (.selection (.inr ⟨haxis, hmode⟩))

theorem startTuple_proceeds (token : String) : Proceeds reserve st [] (st.startTuple token) := by
  have hmotion {axis : Axis} (haxis : axis.isMotion) :
      Proceeds reserve st [] (if st.isOpen then .ok st >>= selectAxis axis
        else st.openBlock .implicit >>= selectAxis axis) := by
    split
    case isTrue hopen => exact selectAxis_proceeds haxis (by simpa [isOpen] using hopen)
    case isFalse =>
      have hopens : Proceeds reserve st [] (st.openBlock .implicit) :=
        openBlock_proceeds (by decide)
      refine hopens.bind fun mid hmid => selectAxis_proceeds haxis ?_
      obtain ⟨-, -, rfl⟩ := openBlock_eq_ok.1 hmid
      exact (by decide : Mode.implicit ≠ .closed)
  unfold startTuple
  cases haxis : Axis.ofSymbol token
  case x | y | z | a => exact hmotion rfl
  case info =>
    dsimp only
    split
    · exact proceeds_refuse (by decide)
    case isFalse hopen =>
      exact Change.proceeds (.selection (.inl ⟨rfl, by simpa [isOpen] using hopen⟩))
  case idle => exact absurd haxis (ofSymbol_ne_idle token)
  all_goals exact proceeds_refuse (by decide)

def Suits (st : Assembler) : Progress → Prop
  | .idle => True
  | .axis axis => axis = .info ∧ st.mode = .closed ∨ axis.isMotion ∧ st.mode ≠ .closed
  | .tuple axis symbol args => args.length < 3 ∧ ∃ m, Mnemonic.ofSymbol? symbol = some m ∧
      (axis = .info ∧ st.mode = .closed ∧ m.isPseudo ∨
        axis.isMotion ∧ st.mode ≠ .closed ∧ m.isPseudo = false)

theorem setMnemonic_proceeds {token : String} (hst : st.progress = .axis axis)
    (hsuits : st.Suits st.progress) : Proceeds reserve st [] (st.setMnemonic axis token) := by
  rw [hst] at hsuits
  unfold setMnemonic
  split
  · exact proceeds_refuse nofun
  case h_2 m hm =>
    split
    case isTrue hinfo =>
      split
      case isTrue hpseudo => exact Change.proceeds (.naming hst hm (.inl ⟨hinfo, hpseudo⟩))
      case isFalse => exact proceeds_refuse nofun
    case isFalse hinfo =>
      have haxis := (hsuits.resolve_left fun h => hinfo h.1).1
      rw [if_pos haxis]
      split
      · exact proceeds_refuse nofun
      case isFalse hpseudo =>
        exact Change.proceeds (.naming hst hm (.inr ⟨haxis, by simpa using hpseudo⟩))

theorem setInfo_proceeds {more : List (Option String)} (hst : st.progress = .tuple axis m args)
    (haxis : axis = .info) :
    Proceeds reserve st [] (st.setInfo (.ofArgs axis m (args ++ more))) := by
  cases h : st.setInfo (.ofArgs axis m (args ++ more)) with
  | ok next =>
    obtain ⟨w, info, hw, hadds, rfl⟩ := setInfo_eq_ok.1 h
    exact Change.proceeds (.info hst haxis hw hadds)
  | error e =>
    unfold setInfo at h
    split at h
    case h_1 f hcompile =>
      cases h
      exact proceeds_refuse fun hf => Assembly.compileOpcode_possible _ (hf ▸ hcompile)
    case h_2 =>
      split at h
      · split at h <;> cases h
        exact proceeds_refuse nofun
      · split at h <;> cases h
        exact proceeds_refuse nofun
      · cases h
        exact proceeds_refuse nofun

theorem complete_proceeds {more : List (Option String)} (hst : st.progress = .tuple axis m args)
    (hsuits : st.Suits st.progress) :
    Proceeds reserve st [] (st.complete (.ofArgs axis m (args ++ more))) := by
  rw [hst] at hsuits
  obtain ⟨-, n, -, hn⟩ := hsuits
  have haxis : (Opcode.ofArgs axis m (args ++ more)).axis = axis := rfl
  unfold complete
  rw [haxis]
  split
  case isTrue hinfo => exact setInfo_proceeds hst hinfo
  case isFalse hinfo =>
    have hmotion := (hn.resolve_left fun h => hinfo h.1).1
    rw [if_pos hmotion]
    exact Change.proceeds (.motion hst hmotion)

theorem addArgument_proceeds {token : String} (hst : st.progress = .tuple axis m args)
    (hsuits : st.Suits st.progress) :
    Proceeds reserve st [] (st.addArgument axis m args token) := by
  unfold addArgument
  generalize (if token.isEmpty then none else some token) = arg
  dsimp only
  split
  case isTrue hless =>
    rw [List.length_append, List.length_singleton] at hless
    exact Change.proceeds (.argument hst (by omega))
  case isFalse => exact complete_proceeds hst hsuits

theorem compiled_complete (hst : st.progress = .tuple axis m args)
    (h : st.complete (.ofArgs axis m args) = .ok mid) :
    mid.mode = st.mode ∧ compiled mid.slots = compiled st.gathered := by
  simp only [gathered, hst]
  rcases complete_eq_ok.1 h with ⟨haxis, h⟩ | ⟨-, rfl⟩
  · obtain ⟨w, info, -, -, rfl⟩ := setInfo_eq_ok.1 h
    obtain rfl : axis = .info := haxis
    exact ⟨rfl, rfl⟩
  · exact ⟨rfl, rfl⟩

theorem complete_all_proceeds (reserve : Reserve) (hst : st.progress = .tuple axis m args)
    (hsuits : st.Suits st.progress) :
    Proceeds reserve st [] (st.complete (.ofArgs axis m args)) := by
  have hcomplete : Proceeds reserve st [] (st.complete (.ofArgs axis m (args ++ []))) :=
    complete_proceeds hst hsuits
  rwa [List.append_nil] at hcomplete

theorem completedBy_of_ends {l : Lexeme} (h : st.endsAt l = true) :
    st.completedBy l = compiled st.gathered := if_pos h

theorem completedBy_of_not_ends {l : Lexeme} (h : st.endsAt l = false) : st.completedBy l = [] := by
  simp [completedBy, h]

theorem readToken_proceeds (reserve : Reserve) (hsuits : st.Suits st.progress) (token : String) :
    Proceeds reserve st (st.completedBy (.word token)) (st.readToken reserve token) := by
  unfold readToken
  cases hk : Keyword.ofSymbol? token with
  | none =>
    rw [completedBy_of_not_ends (by simp [endsAt, hk])]
    cases hst : st.progress with
    | idle =>
      dsimp only
      split
      · exact .refl
      · exact startTuple_proceeds token
    | axis axis => exact setMnemonic_proceeds hst hsuits
    | tuple axis m args =>
      rw [hst] at hsuits
      dsimp only
      rw [if_neg (Nat.not_le.2 hsuits.1)]
      rw [← hst] at hsuits
      exact addArgument_proceeds hst hsuits
  | some k =>
    cases k with
    | opening =>
      rw [completedBy_of_not_ends (by simp [endsAt, hk])]
      cases hst : st.progress with
      | idle => exact openBlock_proceeds nofun
      | axis axis => exact proceeds_refuse nofun
      | tuple axis m args =>
        rw [hst] at hsuits
        dsimp only
        rw [if_neg (Nat.not_le.2 hsuits.1)]
        exact proceeds_refuse nofun
    | closing =>
      rw [completedBy_of_ends (by simp [endsAt, hk])]
      cases hst : st.progress with
      | idle =>
        rw [gathered, hst]
        exact endBlock_proceeds
      | axis axis => exact proceeds_refuse nofun
      | tuple axis m args =>
        have hcomplete := complete_all_proceeds reserve hst hsuits
        rw [hst] at hsuits
        dsimp only
        rw [if_neg (Nat.not_le.2 hsuits.1)]
        refine hcomplete.bind fun mid hmid => ?_
        rw [← (compiled_complete hst hmid).2]
        exact endBlock_proceeds

theorem endLine_rest_proceeds {s : Slots} (hs : compiled st.slots = compiled s) :
    Proceeds reserve st (if st.mode = .implicit then compiled s else [])
      (if st.mode = .implicit then st.closeBlock reserve else .ok st) := by
  split
  case isTrue hmode =>
    rw [← hs]
    exact closeBlock_proceeds (by simp [hmode])
  case isFalse => exact .refl

theorem endLine_proceeds (reserve : Reserve) (hsuits : st.Suits st.progress) :
    Proceeds reserve st (st.completedBy .lineEnd) (st.endLine reserve) := by
  simp only [completedBy, endsAt, decide_eq_true_eq]
  cases hst : st.progress with
  | idle =>
    simp only [endLine, hst]
    exact endLine_rest_proceeds (by rw [gathered, hst])
  | axis axis =>
    simp only [endLine, hst]
    exact proceeds_refuse (by decide)
  | tuple axis m args =>
    have hcomplete := complete_all_proceeds reserve hst hsuits
    rw [hst] at hsuits
    simp only [endLine, hst, if_neg (Nat.not_le.2 hsuits.1)]
    refine hcomplete.bind fun mid hmid => ?_
    obtain ⟨hmode, hslots⟩ := compiled_complete hst hmid
    rw [← hmode]
    exact endLine_rest_proceeds hslots

/-- The blocks that come to their end in the text, up to the first lexeme that is refused. -/
def completed (reserve : Reserve) (st : Assembler) : List Lexeme → List Block
  | [] => []
  | l :: ls =>
    match st.feed reserve l with
    | .ok next => st.completedBy l ++ next.completed reserve ls
    | .error _ => []

end Assembler

/-- Each axis has its own instruction, or none. -/
structure Slots.Proper (s : Slots) : Prop where
  info : s.info = {}
  motion : ∀ axis op, axis.isMotion → s.get? axis = some op → op = {} ∨ op.axis = axis ∧ op.Moves

/-- The lines of the file's own are kept in their places, and their numbers can be read. -/
structure Info.Proper (i : Info) : Prop where
  header : ∀ op ∈ i.header, op.axis = .info ∧ op.Declares .header
  config : ∀ op ∈ i.config, op.axis = .info ∧ op.Declares .config

theorem Slots.proper_empty : Slots.Proper {} where
  info := rfl
  motion axis op haxis hop := by
    cases axis <;> first | exact .inl (Option.some.inj hop).symm | cases haxis

theorem Info.proper_empty : Info.Proper {} := ⟨fun _ h => (nomatch h), fun _ h => (nomatch h)⟩

theorem Slots.Proper.set {s : Slots} {op : Opcode} (h : s.Proper) (hop : op.Moves) :
    (s.set op.axis op).Proper where
  info := by
    have hsame : (s.set op.axis op).get? .info = s.get? .info := by
      refine get?_set_of_ne fun heq => ?_
      have hmotion := hop.1
      rw [← heq] at hmotion
      cases hmotion
    exact (Option.some.inj hsame).trans h.info
  motion axis other haxis hother := by
    by_cases heq : axis = op.axis
    · subst heq
      rw [get?_set_self (get?_isSome_of_isMotion haxis)] at hother
      obtain rfl := Option.some.inj hother
      exact .inr ⟨rfl, hop⟩
    · rw [get?_set_of_ne heq] at hother
      exact h.motion axis other haxis hother

theorem Info.Proper.adds {i j : Info} {op : Opcode} {w : AxisWords} (h : i.Proper)
    (haxis : op.axis = .info) (hw : compileOpcode op = .ok w) (hadds : i.Adds op j) :
    j.Proper := by
  rcases hadds with ⟨hn, -, rfl⟩ | ⟨hn, -, rfl⟩
  · refine ⟨fun other hother => ?_, h.config⟩
    obtain rfl := Option.some.inj hother
    exact ⟨haxis, hn, w, (compileOpcode_eq_ok hn).1 hw⟩
  · refine ⟨h.header, fun other hother => ?_⟩
    obtain rfl := Option.some.inj hother
    exact ⟨haxis, hn, w, (compileOpcode_eq_ok hn).1 hw⟩

namespace Assembler

variable {reserve : Reserve} {st next : Assembler} {bs : List Block}

structure Placed (st : Assembler) : Prop where
  suits : st.Suits st.progress
  closed : st.mode = .closed → st.slots = {}
  opened : st.mode ≠ .closed → st.info.isComplete
  slots : st.slots.Proper
  info : st.info.Proper

theorem Placed.discard (h : st.Placed) : st.discard.Placed where
  suits := trivial
  closed _ := rfl
  opened hmode := absurd rfl hmode
  slots := Slots.proper_empty
  info := h.info

theorem Change.placed (h : Change reserve st bs next) (hst : st.Placed) : next.Placed := by
  cases h with
  | opening hinfo _ hmode =>
    exact ⟨trivial, fun heq => absurd heq hmode, fun _ => hinfo, Slots.proper_empty, hst.info⟩
  | selection haxis => exact ⟨haxis, hst.closed, hst.opened, hst.slots, hst.info⟩
  | @naming axis token m hprogress hm hpseudo =>
    have hsuits := hst.suits
    rw [hprogress] at hsuits
    refine ⟨⟨Nat.zero_lt_succ _, m, hm, ?_⟩, hst.closed, hst.opened, hst.slots, hst.info⟩
    rcases hsuits with ⟨rfl, hmode⟩ | ⟨hmotion, hmode⟩
    · exact .inl ⟨rfl, hmode, (hpseudo.resolve_right fun h => nomatch h.1).2⟩
    · refine .inr ⟨hmotion, hmode, (hpseudo.resolve_left fun h => ?_).2⟩
      rw [h.1] at hmotion
      cases hmotion
  | argument hprogress hless =>
    have hsuits := hst.suits
    rw [hprogress] at hsuits
    refine ⟨⟨?_, hsuits.2⟩, hst.closed, hst.opened, hst.slots, hst.info⟩
    rw [List.length_append, List.length_singleton]
    omega
  | info hprogress haxis hw hadds =>
    have hsuits := hst.suits
    rw [hprogress] at hsuits
    obtain ⟨-, n, -, hn⟩ := hsuits
    have hmode : st.mode = .closed := by
      rcases hn with ⟨-, hmode, -⟩ | ⟨hmotion, -⟩
      · exact hmode
      · rw [haxis] at hmotion
        cases hmotion
    exact ⟨trivial, hst.closed, fun hne => absurd hmode hne, hst.slots,
      hst.info.adds haxis hw hadds⟩
  | @motion axis m args more hprogress haxis =>
    have hsuits := hst.suits
    rw [hprogress] at hsuits
    obtain ⟨-, n, hn, hcase⟩ := hsuits
    have hmoves : axis.isMotion ∧ st.mode ≠ .closed ∧ n.isPseudo = false := by
      refine hcase.resolve_left fun h => ?_
      rw [h.1] at haxis
      cases haxis
    have hop : (Opcode.ofArgs axis m (args ++ more)).Moves :=
      ⟨haxis, n, Opcode.names_ofArgs.2 hn, hmoves.2.2⟩
    exact ⟨trivial, fun heq => absurd heq hmoves.2.1, hst.opened, hst.slots.set hop, hst.info⟩
  | closing => exact Placed.discard ⟨hst.suits, hst.closed, hst.opened, hst.slots, hst.info⟩

theorem Changes.placed (h : Changes reserve st bs next) (hst : st.Placed) : next.Placed := by
  induction h with
  | refl => exact hst
  | tail _ hlast ih => exact hlast.placed ih

/-- A line is read by changes up to its end, or up to its first fault. -/
theorem readTokens_changes (reserve : Reserve) (hst : st.Placed) (tokens : List String) :
    match st.readTokens reserve tokens with
    | .ok next => Changes reserve st (st.completed reserve (tokens.map .word ++ [.lineEnd])) next
    | .error (f, next) =>
      Changes reserve st (st.completed reserve (tokens.map .word ++ [.lineEnd])) next ∧
        f ≠ .malformedAxisState := by
  induction tokens generalizing st with
  | nil =>
    have hend := endLine_proceeds reserve hst.suits
    simp only [readTokens, List.map_nil, List.nil_append, completed, feed]
    cases h : st.endLine reserve with
    | error e =>
      rw [h] at hend
      exact hend
    | ok next =>
      rw [h] at hend
      have hchanges : Changes reserve st (st.completedBy .lineEnd) next := hend
      show Changes reserve st (st.completedBy .lineEnd ++ []) next
      rwa [List.append_nil]
  | cons token tokens ih =>
    have htoken := readToken_proceeds reserve hst.suits token
    simp only [readTokens, List.map_cons, List.cons_append, completed, feed]
    cases h : st.readToken reserve token with
    | error e =>
      rw [h] at htoken
      exact htoken
    | ok mid =>
      rw [h] at htoken
      have hfirst : Changes reserve st (st.completedBy (.word token)) mid := htoken
      have hrest := ih (hfirst.placed hst)
      show match mid.readTokens reserve tokens with
        | .ok next => Changes reserve st _ next
        | .error (f, next) => Changes reserve st _ next ∧ f ≠ .malformedAxisState
      cases hread : mid.readTokens reserve tokens with
      | error e =>
        rw [hread] at hrest
        exact ⟨hfirst.trans hrest.1, hrest.2⟩
      | ok next =>
        rw [hread] at hrest
        exact hfirst.trans hrest

end Assembler

end PulseMill
