import PulseMill.Assembly.InPlace
import PulseMill.Proofs.BetweenLines
set_option autoImplicit false

/-!
The assembler that writes its block in place does what the other one does. Between them stands
`Assembler.inPlace`: a tuple that has been read in part is in its slot, and the axes marked as
given are those whose tuples are complete.
-/

namespace PulseMill

open Assembly (Fault Error readNumber compileOpcode compileBlock)

namespace AxisSet

def ofSlots (s : Slots) : AxisSet := ⟨#v[s.holds .x, s.holds .y, s.holds .z, s.holds .a]⟩

variable {s : Slots} {axis : Axis}

@[simp] theorem ofSlots_empty : ofSlots {} = {} := by decide

theorem contains_ofSlots (h : axis.isMotion) : (ofSlots s).contains axis = s.holds axis := by
  cases axis <;> first | rfl | cases h

theorem insert_ofSlots {op : Opcode} (h : axis.isMotion) (hop : op.isEmpty = false) :
    (ofSlots s).insert axis = ofSlots (s.set axis op) := by
  cases axis
  case x | y | z | a => simp [ofSlots, insert, Axis.slot?, Slots.set, Slots.holds, Slots.get?, hop]
  all_goals cases h

end AxisSet

theorem Slots.set_set (s : Slots) (axis : Axis) (op other : Opcode) :
    (s.set axis op).set axis other = s.set axis other := by cases axis <;> rfl

theorem Opcode.setArg_ofArgs {axis : Axis} {m : String} {args : List (Option String)}
    {arg : Option String} {i : Fin 3} (h : args.length = i) :
    (ofArgs axis m args).setArg arg i = ofArgs axis m (args ++ [arg]) := by
  match args, i, h with
  | [], 0, _ => rfl
  | [_], 1, _ => rfl
  | [_, _], 2, _ => rfl

def Progress.selected : Progress → Axis
  | idle => .idle
  | axis given => given
  | tuple given _ _ => given

/-- The slots, with what has been read of a tuple in its place. -/
def Progress.written (s : Slots) : Progress → Slots
  | idle => s
  | axis given => s.set given { axis := given }
  | tuple given m args => s.set given (.ofArgs given m args)

def Assembler.inPlace (st : Assembler) : InPlace where
  line := st.line
  phase := st.progress.phase
  axis := st.progress.selected
  mode := st.mode
  assigned := .ofSlots st.slots
  slots := st.progress.written st.slots
  info := st.info
  blocks := st.blocks
  failed := st.failed

/-- A line of the file's own, as it is kept: its numbers can be read. -/
structure Opcode.Kept (op : Opcode) (m : Mnemonic) : Prop where
  axis : op.axis = .info
  names : op.Names m
  numbers : ∀ arg ∈ op.args, ∃ n, readNumber arg = .ok n

theorem Opcode.kept_of_declares {op : Opcode} {m : Mnemonic}
    (h : op.axis = .info ∧ op.Declares m) : op.Kept m := by
  obtain ⟨haxis, hm, w, hw⟩ := h
  refine ⟨haxis, hm, fun arg harg => ?_⟩
  simp only [Opcode.args, List.mem_cons, List.not_mem_nil, or_false] at harg
  rcases harg with rfl | rfl | rfl
  · exact ⟨w.rate, hw.rate⟩
  · exact ⟨w.count, hw.count⟩
  · exact ⟨w.width, hw.width⟩

namespace InPlace

open Assembler (Changes)

variable {reserve : Reserve} {copies : Copies} {st mid next : Assembler} {d : InPlace}
  {axis : Axis} {m token : String} {args : List (Option String)} {bs : List Block}

theorem failed_inPlace : st.inPlace.failed = st.failed := rfl

theorem line_inPlace : st.inPlace.line = st.line := rfl

theorem mode_inPlace : st.inPlace.mode = st.mode := rfl

theorem info_inPlace : st.inPlace.info = st.info := rfl

theorem blocks_inPlace : st.inPlace.blocks = st.blocks := rfl

/-- The two differ at most in what is put back after an error. -/
structure Recovers (d : InPlace) (st : Assembler) : Prop where
  line : d.line = st.line
  info : d.info = st.info
  blocks : d.blocks = st.blocks

theorem recovers_inPlace (st : Assembler) : Recovers st.inPlace st := ⟨rfl, rfl, rfl⟩

theorem Recovers.fail (h : Recovers d st) (e : Error) : d.fail e = (st.stop e).inPlace := by
  simp only [InPlace.fail, discardBlock, resetBlock, h.line, h.info, h.blocks]
  rw [← AxisSet.ofSlots_empty]
  rfl

/-- The step in place ends as the other one does, or sooner, where a token cannot be copied. What
has changed by then is what changes of the other one as well. -/
inductive Follows (reserve : Reserve) (copies : Copies) (st : Assembler) :
    Step → Assembler.Step → Prop where
  | read {next : Assembler} : Follows reserve copies st (.ok next.inPlace) (.ok next)
  | refused {f : Fault} {d : InPlace} {mid : Assembler} :
      Recovers d mid → Follows reserve copies st (.error (f, d)) (.error (f, mid))
  | uncopied {d at' : InPlace} {token : String} {mid : Assembler} {bs : List Block}
      {y : Assembler.Step} : copies at' token = false → st.Changes reserve bs mid →
      Recovers d mid → Follows reserve copies st (.error (.outOfMemory, d)) y

variable {x : Step} {y : Assembler.Step}

theorem Follows.after (h : Follows reserve copies mid x y) (hc : st.Changes reserve bs mid) :
    Follows reserve copies st x y := by
  cases h with
  | read => exact .read
  | refused hr => exact .refused hr
  | uncopied ht hlater hr => exact .uncopied ht (hc.trans hlater) hr

theorem Follows.bind {f : InPlace → Step} {g : Assembler → Assembler.Step}
    (h : Follows reserve copies st x y)
    (k : ∀ mid, y = .ok mid → Follows reserve copies st (f mid.inPlace) (g mid)) :
    Follows reserve copies st (x >>= f) (y >>= g) := by
  cases h with
  | @read next => exact k next rfl
  | refused hr => exact .refused hr
  | uncopied ht hc hr => exact .uncopied ht hc hr

theorem Follows.of_eq (h : d = next.inPlace) : Follows reserve copies st (.ok d) (.ok next) := by
  rw [h]
  exact .read

theorem follows_refuse (f : Fault) :
    Follows reserve copies st (st.inPlace.refuse f) (st.refuse f) := .refused (recovers_inPlace st)

theorem openBlock_follows (mode : Mode) :
    Follows reserve copies st (st.inPlace.openBlock mode) (st.openBlock mode) := by
  have hmissing : (st.info.header.isNone || st.info.config.isNone) = !st.info.isComplete := by
    simp [Info.isComplete]
  unfold openBlock Assembler.openBlock Assembler.isOpen
  rw [info_inPlace, mode_inPlace, hmissing]
  split
  · exact follows_refuse _
  · by_cases hmode : st.mode = .closed
    · rw [if_neg (by simpa using hmode), if_neg (by simpa using hmode)]
      refine .of_eq ?_
      simp [resetBlock, Assembler.inPlace, Assembler.discard, Progress.written, Progress.phase,
        Progress.selected]
    · rw [if_pos hmode, if_pos (by simpa using hmode)]
      exact follows_refuse _

theorem closeBlock_follows (hst : st.progress = .idle) :
    Follows reserve copies st (st.inPlace.closeBlock reserve) (st.closeBlock reserve) := by
  have hslots : st.inPlace.slots = st.slots := by simp [Assembler.inPlace, hst, Progress.written]
  unfold closeBlock Assembler.closeBlock
  rw [hslots]
  cases compileBlock st.slots with
  | error f => exact follows_refuse f
  | ok block =>
    dsimp only
    rw [blocks_inPlace]
    cases st.blocks.push reserve block with
    | error e => exact follows_refuse _
    | ok blocks =>
      refine .of_eq ?_
      simp [discardBlock, resetBlock, Assembler.inPlace, Assembler.discard, Progress.written,
        Progress.phase, Progress.selected]

theorem endBlock_follows (hst : st.progress = .idle) :
    Follows reserve copies st (st.inPlace.endBlock reserve) (st.endBlock reserve) := by
  unfold endBlock Assembler.endBlock Assembler.isOpen
  rw [mode_inPlace]
  by_cases hmode : st.mode = .closed
  · rw [if_pos hmode, if_neg (by simpa using hmode)]
    exact follows_refuse _
  · rw [if_neg hmode, if_pos (by simpa using hmode)]
    exact closeBlock_follows hst

theorem exists_get? (s : Slots) (h : axis = .info ∨ axis.isMotion) :
    ∃ op, s.get? axis = some op := by
  rcases h with rfl | h
  · exact ⟨s.info, rfl⟩
  · exact Option.isSome_iff_exists.1 (get?_isSome_of_isMotion h)

theorem selectAxis_follows (hst : st.progress = .idle) (haxis : axis = .info ∨ axis.isMotion) :
    Follows reserve copies st (st.inPlace.selectAxis axis)
      (.ok { st with progress := .axis axis }) := by
  obtain ⟨op, hop⟩ := exists_get? st.slots haxis
  simp only [selectAxis, writeSlot, Assembler.inPlace, hst, Progress.written, hop, bind,
    Except.bind, pure, Except.pure]
  exact .of_eq rfl

theorem selectFree_follows (hst : st.progress = .idle) (haxis : axis.isMotion) :
    Follows reserve copies st (st.inPlace.selectFree axis) (st.selectAxis axis) := by
  have hassigned : st.inPlace.assigned.contains axis = st.slots.holds axis :=
    AxisSet.contains_ofSlots haxis
  unfold selectFree Assembler.selectAxis
  rw [hassigned]
  split
  · exact follows_refuse _
  · exact selectAxis_follows hst (.inr haxis)

theorem startAxis_follows (hst : st.progress = .idle) (token : String) :
    Follows reserve copies st (st.inPlace.startAxis token) (st.startTuple token) := by
  have hmotion {axis : Axis} (haxis : axis.isMotion) :
      Follows reserve copies st
        (if st.inPlace.mode = .closed then st.inPlace.openBlock .implicit >>= selectFree axis
          else .ok st.inPlace >>= selectFree axis)
        (if st.isOpen then .ok st >>= Assembler.selectAxis axis
          else st.openBlock .implicit >>= Assembler.selectAxis axis) := by
    unfold Assembler.isOpen
    rw [mode_inPlace]
    by_cases hmode : st.mode = .closed
    · rw [if_pos hmode, if_neg (by simpa using hmode)]
      refine (openBlock_follows .implicit).bind fun mid hmid => ?_
      obtain ⟨hinfo, -, rfl⟩ := Assembler.openBlock_eq_ok.1 hmid
      exact (selectFree_follows rfl haxis).after (Changes.refl.tail (.opening hinfo hmode nofun))
    · rw [if_neg hmode, if_pos (by simpa using hmode)]
      exact selectFree_follows hst haxis
  unfold startAxis Assembler.startTuple
  cases Axis.ofSymbol token
  case x | y | z | a => exact hmotion rfl
  case info =>
    dsimp only
    unfold Assembler.isOpen
    rw [mode_inPlace]
    by_cases hmode : st.mode = .closed
    · rw [if_neg (by simpa using hmode), if_neg (by simpa using hmode)]
      exact selectAxis_follows hst (.inl rfl)
    · rw [if_pos hmode, if_pos (by simpa using hmode)]
      exact follows_refuse _
  all_goals exact follows_refuse _

theorem writeMnemonic_follows (hst : st.progress = .axis axis)
    (haxis : axis = .info ∨ axis.isMotion) :
    Follows reserve copies st (st.inPlace.writeMnemonic copies token)
      (.ok { st with progress := .tuple axis token [] }) := by
  have hslot : (st.slots.set axis { axis }).get? axis = some { axis } := by
    obtain ⟨op, hop⟩ := exists_get? st.slots haxis
    exact Slots.get?_set_self (by rw [hop]; rfl)
  unfold writeMnemonic
  cases hcopies : copies st.inPlace token with
  | false => exact .uncopied hcopies .refl (recovers_inPlace st)
  | true =>
    simp only [writeSlot, Assembler.inPlace, hst, Progress.written, Progress.selected, hslot, bind,
      Except.bind, pure, Except.pure, if_true, Slots.set_set]
    exact .of_eq rfl

theorem setOpcode_follows (hst : st.progress = .axis axis)
    (haxis : axis = .info ∨ axis.isMotion) (token : String) :
    Follows reserve copies st (st.inPlace.setOpcode copies token) (st.setMnemonic axis token) := by
  have hselected : st.inPlace.axis = axis := by simp [Assembler.inPlace, hst, Progress.selected]
  unfold setOpcode Assembler.setMnemonic
  cases Mnemonic.ofSymbol? token with
  | none => exact follows_refuse _
  | some m =>
    have hwrite : Follows reserve copies st (st.inPlace.writeMnemonic copies token)
        (.ok { st with progress := .tuple axis token [] }) := writeMnemonic_follows hst haxis
    dsimp only
    rw [hselected]
    cases axis
    case info | x | y | z | a =>
      cases m.isPseudo <;> first | exact hwrite | exact follows_refuse _
    all_goals simp [Axis.isMotion] at haxis

theorem setArgument_follows {i : Fin 3} {phase : Phase} (hst : st.progress = .tuple axis m args)
    (haxis : axis = .info ∨ axis.isMotion) (hargs : args.length = i)
    (hphase : ∀ arg, phase = (Progress.tuple axis m (args ++ [arg])).phase) (token : String) :
    Follows reserve copies st (st.inPlace.setArgument copies i token phase)
      (.ok { st with
        progress := .tuple axis m (args ++ [if token.isEmpty then none else some token]) }) := by
  have hslot :
      (st.slots.set axis (.ofArgs axis m args)).get? axis = some (.ofArgs axis m args) := by
    obtain ⟨op, hop⟩ := exists_get? st.slots haxis
    exact Slots.get?_set_self (by rw [hop]; rfl)
  unfold setArgument
  split
  case isTrue =>
    simp only [writeSlot, Assembler.inPlace, hst, Progress.written, Progress.selected, hslot, bind,
      Except.bind, pure, Except.pure, Slots.set_set, Opcode.setArg_ofArgs hargs]
    rw [hphase]
    exact .of_eq rfl
  case isFalse h =>
    have hcopies : token.isEmpty = false ∧ copies st.inPlace token = false := by simpa using h
    exact .uncopied hcopies.2 .refl (recovers_inPlace st)

theorem keepInfo_follows (h : Recovers d st) (hdone : ∀ info,
      { d with info, axis := .idle, phase := .idle } = { st with info, progress := .idle }.inPlace)
    (op : Opcode) : Follows reserve copies st (d.keepInfo op) (st.setInfo op) := by
  unfold keepInfo Assembler.setInfo
  rw [h.info]
  cases compileOpcode op with
  | error f => exact .refused h
  | ok w =>
    dsimp only
    cases op.mnemonic.bind Mnemonic.ofSymbol? with
    | none => exact .refused h
    | some m =>
      cases m
      case header | config =>
        dsimp only
        split
        · exact .refused h
        · exact .of_eq (hdone _)
      all_goals exact .refused h

theorem completeAxis_follows (haxis : axis = .info ∨ axis.isMotion) (hinfo : st.slots.info = {}) :
    Follows reserve copies st { st with progress := .tuple axis m args }.inPlace.completeAxis
      (st.complete (.ofArgs axis m args)) := by
  have hop : (Opcode.ofArgs axis m args).axis = axis := rfl
  unfold completeAxis Assembler.complete
  rw [hop]
  rcases haxis with rfl | haxis
  · rw [if_pos rfl]
    refine keepInfo_follows ⟨rfl, rfl, rfl⟩ (fun info => ?_) _
    have hslots : { st.slots.set .info (.ofArgs .info m args) with info := {} } = st.slots := by
      rw [← hinfo]
      rfl
    exact congrArg (fun slots : Slots => { { st with info, progress := .idle }.inPlace with slots })
      hslots
  · have hmarked : (AxisSet.ofSlots st.slots).insert axis =
        .ofSlots (st.slots.set axis (.ofArgs axis m args)) := AxisSet.insert_ofSlots haxis rfl
    have hdone : { { st with progress := .tuple axis m args }.inPlace with
        assigned := (AxisSet.ofSlots st.slots).insert axis, axis := .idle, phase := .idle } =
      { st with slots := st.slots.set axis (.ofArgs axis m args), progress := .idle }.inPlace := by
      rw [hmarked]
      rfl
    rw [if_neg (by rintro rfl; cases haxis), if_pos haxis]
    cases axis
    case x | y | z | a => exact .of_eq hdone
    all_goals cases haxis

theorem complete_follows (hst : st.progress = .tuple axis m args)
    (haxis : axis = .info ∨ axis.isMotion) (hinfo : st.slots.info = {}) :
    Follows reserve copies st st.inPlace.completeAxis (st.complete (.ofArgs axis m args)) := by
  have hsame : { st with progress := .tuple axis m args } = st := by rw [← hst]
  have hcomplete : Follows reserve copies st
      { st with progress := .tuple axis m args }.inPlace.completeAxis
      (st.complete (.ofArgs axis m args)) := completeAxis_follows haxis hinfo
  rwa [hsame] at hcomplete

theorem selected_of_suits (hst : st.Placed) (h : st.progress ≠ .idle) :
    st.progress.selected = .info ∨ st.progress.selected.isMotion := by
  have hsuits := hst.suits
  cases hp : st.progress with
  | idle => exact absurd hp h
  | axis axis =>
    rw [hp] at hsuits
    exact hsuits.imp And.left And.left
  | tuple axis m args =>
    rw [hp] at hsuits
    obtain ⟨-, n, -, hn⟩ := hsuits
    exact hn.imp And.left And.left

theorem few_of_suits (hst : st.Placed) (hp : st.progress = .tuple axis m args) :
    args = [] ∨ (∃ p, args = [p]) ∨ ∃ p q, args = [p, q] := by
  have hsuits := hst.suits
  rw [hp] at hsuits
  match args, hsuits.1 with
  | [], _ => exact .inl rfl
  | [p], _ => exact .inr (.inl ⟨p, rfl⟩)
  | [p, q], _ => exact .inr (.inr ⟨p, q, rfl⟩)

/-- A tuple may be completed before all its arguments have come. What follows then meets a state
with no tuple under way. -/
theorem complete_bind_follows {f : InPlace → Step} {g : Assembler → Assembler.Step}
    (hst : st.Placed) (hp : st.progress = .tuple axis m args)
    (k : ∀ mid : Assembler, mid.progress = .idle →
      Follows reserve copies mid (f mid.inPlace) (g mid)) :
    Follows reserve copies st (st.inPlace.completeAxis >>= f)
      (st.complete (.ofArgs axis m args) >>= g) := by
  have hselected := selected_of_suits hst
  rw [hp] at hselected
  refine (complete_follows hp (hselected nofun) hst.slots.info).bind fun mid hmid => ?_
  have hchanges := Assembler.complete_all_proceeds reserve hp (hp ▸ hst.suits)
  rw [hmid] at hchanges
  exact (k mid (Assembler.complete_idle hmid)).after hchanges

theorem readToken_follows (hst : st.Placed) (token : String) :
    Follows reserve copies st (st.inPlace.readToken reserve copies token)
      (st.readToken reserve token) := by
  have hphase : st.inPlace.phase = st.progress.phase := rfl
  have hselected := selected_of_suits hst
  unfold readToken Assembler.readToken
  rw [hphase]
  cases hp : st.progress with
  | idle =>
    cases Keyword.ofSymbol? token with
    | none =>
      dsimp only [Progress.phase]
      split
      · exact .read
      · exact startAxis_follows hp token
    | some k =>
      cases k with
      | opening => exact openBlock_follows .explicit
      | closing => exact endBlock_follows hp
  | axis axis =>
    rw [hp] at hselected
    cases Keyword.ofSymbol? token with
    | none => exact setOpcode_follows hp (hselected nofun) token
    | some k => exact follows_refuse _
  | tuple axis m args =>
    rw [hp] at hselected
    have haxis : axis = .info ∨ axis.isMotion := hselected nofun
    have hfew := few_of_suits hst hp
    cases Keyword.ofSymbol? token with
    | some k =>
      cases k with
      | opening => obtain rfl | ⟨p, rfl⟩ | ⟨p, q, rfl⟩ := hfew <;> exact follows_refuse _
      | closing =>
        have hend : Follows reserve copies st
            (st.inPlace.completeAxis >>= fun d => d.endBlock reserve)
            (st.complete (.ofArgs axis m args) >>= fun mid => mid.endBlock reserve) :=
          complete_bind_follows hst hp fun mid hmid => endBlock_follows hmid
        obtain rfl | ⟨p, rfl⟩ | ⟨p, q, rfl⟩ := hfew <;> exact hend
    | none =>
      obtain rfl | ⟨p, rfl⟩ | ⟨p, q, rfl⟩ := hfew
      · exact setArgument_follows (i := 0) hp haxis rfl (fun _ => rfl) token
      · exact setArgument_follows (i := 1) hp haxis rfl (fun _ => rfl) token
      · -- The third argument is written before the tuple counts as complete.
        have hlast : Follows reserve copies st (st.inPlace.setArgument copies 2 token .arg2) _ :=
          setArgument_follows hp haxis rfl (fun _ => rfl) token
        exact hlast.bind (g := fun _ => st.addArgument axis m [p, q] token) fun mid hmid => by
          cases hmid
          exact completeAxis_follows haxis hst.slots.info

theorem endLine_follows (hst : st.Placed) :
    Follows reserve copies st (st.inPlace.endLine reserve) (st.endLine reserve) := by
  have hphase : st.inPlace.phase = st.progress.phase := rfl
  have hrest {mid : Assembler} (hmid : mid.progress = .idle) : Follows reserve copies mid
      (if mid.inPlace.mode = .implicit then mid.inPlace.closeBlock reserve else .ok mid.inPlace)
      (if mid.mode = .implicit then mid.closeBlock reserve else .ok mid) := by
    rw [mode_inPlace]
    split
    · exact closeBlock_follows hmid
    · exact .read
  unfold endLine Assembler.endLine
  rw [hphase]
  cases hp : st.progress with
  | idle => exact hrest hp
  | axis axis => exact follows_refuse _
  | tuple axis m args =>
    have hcomplete : Follows reserve copies st
        (st.inPlace.completeAxis >>= fun d =>
          if d.mode = .implicit then d.closeBlock reserve else .ok d)
        (st.complete (.ofArgs axis m args) >>= fun mid =>
          if mid.mode = .implicit then mid.closeBlock reserve else .ok mid) :=
      complete_bind_follows hst hp fun mid hmid => hrest hmid
    obtain rfl | ⟨p, rfl⟩ | ⟨p, q, rfl⟩ := few_of_suits hst hp <;> exact hcomplete

theorem readTokens_follows (hst : st.Placed) (tokens : List String) :
    Follows reserve copies st (st.inPlace.readTokens reserve copies tokens)
      (st.readTokens reserve tokens) := by
  induction tokens generalizing st with
  | nil => exact endLine_follows hst
  | cons token tokens ih =>
    refine (readToken_follows hst token).bind fun mid hmid => ?_
    have hchanges := Assembler.readToken_proceeds reserve hst.suits token
    rw [hmid] at hchanges
    exact (ih (hchanges.placed hst)).after hchanges

open Assembler (Settled Stocked)

theorem readLine_inPlace (hst : st.Settled) (hfailed : st.failed = none)
    (hless : st.line < Assembler.maxLine) (line : String) :
    st.inPlace.readLine reserve copies line =
      settle (st.advance.inPlace.readTokens reserve copies (Assembler.tokensOf line)) := by
  unfold readLine
  rw [failed_inPlace, line_inPlace, if_neg (by simp [hfailed]), if_neg (by omega)]
  cases Assembler.tokensOf line with
  | cons token tokens => rfl
  | nil =>
    -- A line without tokens is not read at all, and its end would make no difference.
    have hend : st.advance.inPlace.endLine reserve = .ok st.advance.inPlace := by
      have hphase : st.advance.inPlace.phase = .idle := by
        simp [Assembler.inPlace, Assembler.advance, hst.progress, Progress.phase]
      unfold endLine
      rw [hphase]
      exact if_neg hst.mode
    rw [readTokens, hend]
    rfl

/-- A line leaves what it leaves in the other assembler, or else the error that a token could not
be copied. -/
theorem readLine_follows (hst : st.Settled) (line : String) :
    st.inPlace.readLine reserve copies line = (st.readLine reserve line).inPlace ∨
      ∃ d token mid bs, copies d token = false ∧ Changes reserve st.advance bs mid ∧
        st.inPlace.readLine reserve copies line =
          (mid.stop ⟨some mid.line, .outOfMemory⟩).inPlace := by
  have hfollows : Follows reserve copies st.advance
      (st.advance.inPlace.readTokens reserve copies (Assembler.tokensOf line))
      (st.advance.readTokens reserve (Assembler.tokensOf line)) :=
    readTokens_follows hst.advance_placed _
  have hline : Assembler.LineStep reserve (Assembler.tokensOf line) st (st.readLine reserve line) :=
    hst.line line
  generalize st.readLine reserve line = next at hline ⊢
  cases hline with
  | ignored hfailed =>
    left
    unfold readLine
    rw [failed_inPlace, if_pos hfailed]
  | uncounted hfailed hcount =>
    left
    unfold readLine
    rw [failed_inPlace, line_inPlace, if_neg (by simp [hfailed]), if_pos hcount]
    exact (recovers_inPlace st).fail _
  | read hfailed hless hread =>
    rw [readLine_inPlace hst hfailed hless]
    rw [hread] at hfollows
    generalize st.advance.inPlace.readTokens reserve copies (Assembler.tokensOf line) = x at *
    cases hfollows with
    | read => exact .inl rfl
    | uncopied ht hc hr => exact .inr ⟨_, _, _, _, ht, hc, by rw [← hr.line]; exact hr.fail _⟩
  | refused hfailed hless hread =>
    rw [readLine_inPlace hst hfailed hless]
    rw [hread] at hfollows
    generalize st.advance.inPlace.readTokens reserve copies (Assembler.tokensOf line) = x at *
    cases hfollows with
    | refused hr => exact .inl (by rw [← hr.line]; exact hr.fail _)
    | uncopied ht hc hr => exact .inr ⟨_, _, _, _, ht, hc, by rw [← hr.line]; exact hr.fail _⟩

theorem readLine_settled (hst : st.Settled) (k : st.Stocked) (line : String) :
    ∃ next : Assembler, next.Settled ∧ next.Stocked ∧
      st.inPlace.readLine reserve copies line = next.inPlace := by
  rcases readLine_follows hst line with h | ⟨d, token, mid, bs, -, hchanges, h⟩
  · exact ⟨_, (hst.line line).settled hst, (hst.line line).stocked hst k, h⟩
  · have hadvance : st.advance.Stocked := ⟨k.motion, k.info⟩
    have hmid := hchanges.stocked hst.advance_placed hadvance
    have hplaced := hchanges.placed hst.advance_placed
    have hstop : (mid.stop ⟨some mid.line, .outOfMemory⟩).Settled := hplaced.settled_stop nofun
    exact ⟨_, hstop, ⟨hmid.motion, hmid.info⟩, h⟩

theorem readLines_settled (hst : st.Settled) (k : st.Stocked) (lines : List String) :
    ∃ next : Assembler, next.Settled ∧ next.Stocked ∧
      st.inPlace.readLines reserve copies lines = next.inPlace := by
  induction lines generalizing st with
  | nil => exact ⟨st, hst, k, rfl⟩
  | cons line lines ih =>
    obtain ⟨mid, hmid, kmid, hline⟩ := readLine_settled hst k line
    obtain ⟨next, hnext, knext, hlines⟩ := ih hmid kmid
    exact ⟨next, hnext, knext, by rw [← hlines, ← hline]; rfl⟩

/-- Where every token can be copied, the two assemblers do the same. -/
theorem readLines_inPlace (hst : st.Settled) (hcopies : ∀ d token, copies d token = true)
    (lines : List String) :
    st.inPlace.readLines reserve copies lines = (st.readLines reserve lines).inPlace := by
  induction lines generalizing st with
  | nil => rfl
  | cons line lines ih =>
    have hline : st.inPlace.readLine reserve copies line = (st.readLine reserve line).inPlace := by
      rcases readLine_follows hst line with h | ⟨d, token, -, -, hrefused, -⟩
      · exact h
      · rw [hcopies d token] at hrefused
        cases hrefused
    have hnext : (st.readLine reserve line).Settled := (hst.line line).settled hst
    have hlines := ih hnext
    rw [← hline] at hlines
    exact hlines

/-- Between two lines no tuple is under way, and a block is open only if it was opened by `begin`.
A closed block leaves nothing behind, and neither does an error. -/
structure Orderly (d : InPlace) : Prop where
  phase : d.phase = .idle
  axis : d.axis = .idle
  mode : d.mode = .closed ∨ d.mode = .explicit
  closed : d.mode = .closed ∨ d.failed.isSome →
    d.slots = {} ∧ ∀ axis, d.assigned.contains axis = false
  explicit : d.mode = .explicit → d.info.header.isSome ∧ d.info.config.isSome ∧
    d.slots.info = {} ∧ ∀ axis ∈ Axis.motion, ∀ op, d.slots.get? axis = some op →
      (d.assigned.contains axis ↔ op.axis = axis ∧ ∃ m, op.Names m ∧ m.isPseudo = false) ∧
        (d.assigned.contains axis = false → op = {})
  appended : d.blocks.toList ≠ [] → d.info.header.isSome ∧ d.info.config.isSome
  header : ∀ op ∈ d.info.header, op.Kept .header
  config : ∀ op ∈ d.info.config, op.Kept .config
  codes : ∀ b ∈ d.blocks.toList, b.IsMotion
  possible : ∀ e ∈ d.failed, e.fault ≠ .malformedAxisState

theorem contains_iff_of_placed (h : st.Placed) (haxis : axis.isMotion) {op : Opcode}
    (hop : st.slots.get? axis = some op) :
    (st.inPlace.assigned.contains axis ↔ op.axis = axis ∧ ∃ m, op.Names m ∧ m.isPseudo = false) ∧
      (st.inPlace.assigned.contains axis = false → op = {}) := by
  have hassigned : st.inPlace.assigned.contains axis = !op.isEmpty := by
    rw [show st.inPlace.assigned = .ofSlots st.slots from rfl, AxisSet.contains_ofSlots haxis]
    simp [Slots.holds, hop]
  rw [hassigned]
  rcases h.slots.motion axis op haxis hop with rfl | ⟨hsame, -, m, hm, hpseudo⟩
  · refine ⟨iff_of_false (by simp [Opcode.isEmpty]) fun hgiven => ?_, fun _ => rfl⟩
    obtain ⟨-, m, ⟨_, hmem, -⟩, -⟩ := hgiven
    cases hmem
  · have hsome := isEmpty_of_names hm
    exact ⟨iff_of_true (by simp [hsome]) ⟨hsame, m, hm, hpseudo⟩, by simp [hsome]⟩

theorem orderly_inPlace (h : st.Settled) (k : st.Stocked) : st.inPlace.Orderly := by
  have hslots : st.inPlace.slots = st.slots := by
    simp [Assembler.inPlace, h.progress, Progress.written]
  constructor
  case phase => simp [Assembler.inPlace, h.progress, Progress.phase]
  case axis => simp [Assembler.inPlace, h.progress, Progress.selected]
  case mode =>
    have hmode := h.mode
    rw [mode_inPlace]
    cases hst : st.mode with
    | closed => exact .inl rfl
    | explicit => exact .inr rfl
    | implicit => exact absurd hst hmode
  case closed =>
    intro hgiven
    have hempty : st.slots = {} := h.placed.closed (hgiven.elim id h.stopped)
    have hnone : st.inPlace.assigned = {} := by
      rw [show st.inPlace.assigned = .ofSlots st.slots from rfl, hempty, AxisSet.ofSlots_empty]
    rw [hslots, hnone]
    exact ⟨hempty, fun axis => by cases axis <;> rfl⟩
  case explicit =>
    intro hmode
    have hopen : st.mode ≠ .closed := by
      rw [← mode_inPlace, hmode]
      decide
    obtain ⟨hheader, hconfig⟩ := Assembler.isComplete_iff.1 (h.placed.opened hopen)
    rw [hslots]
    exact ⟨hheader, hconfig, h.placed.slots.info, fun axis haxis op hop =>
      contains_iff_of_placed h.placed (Axis.mem_motion.1 haxis) hop⟩
  case appended => exact fun hne => Assembler.isComplete_iff.1 (k.info hne)
  case header => exact fun op hop => Opcode.kept_of_declares (h.placed.info.header op hop)
  case config => exact fun op hop => Opcode.kept_of_declares (h.placed.info.config op hop)
  case codes => exact k.motion
  case possible => exact h.possible

theorem ofBlocks_eq (a : BlockArray Block) : ofBlocks a = (Assembler.ofBlocks a).inPlace := by
  simp [ofBlocks, Assembler.ofBlocks, Assembler.inPlace, Progress.written, Progress.phase,
    Progress.selected]

/-- Whatever lines are read, with or without errors, and whether or not there is memory for the
blocks and the tokens, an assembler that started without blocks is in order after each of them.
While the tokens can be copied, it has done what the other assembler does. -/
theorem readLines_orderly (reserve : Reserve) (copies : Copies) (a : BlockArray Block)
    (ha : a.toList = []) (lines : List String) :
    let d := (ofBlocks a).readLines reserve copies lines
    d.Orderly ∧ ((∀ at' token, copies at' token = true) →
      d = ((Assembler.ofBlocks a).readLines reserve lines).inPlace) := by
  have hsettled := Assembler.settled_ofBlocks a
  have hstocked : (Assembler.ofBlocks a).Stocked := by
    have hnone : (Assembler.ofBlocks a).blocks.toList = [] := ha
    exact ⟨by simp [hnone], fun hne => absurd hnone hne⟩
  rw [ofBlocks_eq]
  refine ⟨?_, fun hcopies => readLines_inPlace hsettled hcopies lines⟩
  obtain ⟨next, hnext, knext, hlines⟩ := readLines_settled hsettled hstocked lines
  rw [hlines]
  exact orderly_inPlace hnext knext

/-- One block has been appended and another is open, with one of its axes assigned. -/
theorem readLines_orderly_within_block :
    let lines :=
      ["INFO, HEADER, 1", "info, config, 0x4 ; kept", "Y, CCW, 50", "begin, x, dwell, 75"]
    let a : BlockArray Block := .empty
    let d := (ofBlocks a).readLines (fun _ => true) (fun _ _ => true) lines
    a.toList = [] ∧ d.Orderly ∧
      d = ((Assembler.ofBlocks a).readLines (fun _ => true) lines).inPlace ∧
      d.mode = .explicit ∧ d.assigned.contains .x ∧ d.assigned.contains .y = false ∧
      d.blocks.length = 1 := by
  intro lines a d
  obtain ⟨horderly, hsame⟩ := readLines_orderly (fun _ => true) (fun _ _ => true) a rfl lines
  obtain ⟨hmode, hx, hy, hlength⟩ : d.mode = .explicit ∧ d.assigned.contains .x ∧
      d.assigned.contains .y = false ∧ d.blocks.length = 1 := by decide +kernel
  exact ⟨rfl, horderly, hsame fun _ _ => rfl, hmode, hx, hy, hlength⟩

end InPlace

end PulseMill
