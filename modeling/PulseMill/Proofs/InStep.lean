import PulseMill.Proofs.BetweenLines
import PulseMill.Proofs.LetterCase
set_option autoImplicit false

/-!
Two assemblers side by side. They read like texts alike, whatever programs stand behind them, as
long as these are coupled in a way that reading cannot tell apart.
-/

namespace PulseMill

open Assembly (Fault Error compileOpcode compileBlock)

/-- Which programs may stand behind two assemblers that read alike. Reading only looks at whether
the lines of the file's own are there, and the programs stay coupled when alike lines or the same
block are added to both. A fault that is excused may stop one of the two alone. -/
structure Coupling (reserve reserve' : Reserve) where
  excused : Fault → Prop
  rel : Program → Program → Prop
  header : ∀ {p q}, rel p q → p.info.header.isSome = q.info.header.isSome
  config : ∀ {p q}, rel p q → p.info.config.isSome = q.info.config.isSome
  addHeader : ∀ {p q op other}, rel p q → op.Alike other →
    rel ⟨{ p.info with header := some op }, p.blocks⟩
      ⟨{ q.info with header := some other }, q.blocks⟩
  addConfig : ∀ {p q op other}, rel p q → op.Alike other →
    rel ⟨{ p.info with config := some op }, p.blocks⟩
      ⟨{ q.info with config := some other }, q.blocks⟩
  push : ∀ {p q} (b : Block), rel p q →
    (∃ x y, p.blocks.push reserve b = .ok x ∧ q.blocks.push reserve' b = .ok y ∧
      rel ⟨p.info, x⟩ ⟨q.info, y⟩) ∨
    (∃ e, p.blocks.push reserve b = .error e ∧ q.blocks.push reserve' b = .error e) ∨
    (∃ e, p.blocks.push reserve b = .error e ∧ excused (.blockArray e)) ∨
    ∃ e, q.blocks.push reserve' b = .error e ∧ excused (.blockArray e)

inductive Progress.Alike : Progress → Progress → Prop where
  | idle : Alike .idle .idle
  | axis (axis : Axis) : Alike (.axis axis) (.axis axis)
  | tuple {axis : Axis} {m n : String} {args more : List (Option String)} :
      Text.folded m = Text.folded n →
      args.map (Option.map Text.folded) = more.map (Option.map Text.folded) →
      Alike (.tuple axis m args) (.tuple axis n more)

theorem Progress.Alike.idle_iff {p q : Progress} (h : p.Alike q) : p = .idle ↔ q = .idle := by
  cases h <;> simp

namespace Coupling

open Assembler

variable {reserve reserve' : Reserve} {c : Coupling reserve reserve'} {st tw : Assembler}

structure InStep (c : Coupling reserve reserve') (st tw : Assembler) : Prop where
  progress : st.progress.Alike tw.progress
  mode : st.mode = tw.mode
  slots : st.slots.Alike tw.slots
  program : c.rel st.program tw.program

inductive Tandem (c : Coupling reserve reserve') : Step → Step → Prop where
  | ok {st tw : Assembler} : c.InStep st tw → Tandem c (.ok st) (.ok tw)
  | refused {f : Fault} {st tw : Assembler} :
      c.rel st.program tw.program → Tandem c (.error (f, st)) (.error (f, tw))
  | left {f : Fault} {st : Assembler} {y : Step} : c.excused f → Tandem c (.error (f, st)) y
  | right {f : Fault} {tw : Assembler} {x : Step} : c.excused f → Tandem c x (.error (f, tw))

theorem Tandem.bind {x y : Step} {f g : Assembler → Step} (h : c.Tandem x y)
    (k : ∀ st tw, c.InStep st tw → c.Tandem (f st) (g tw)) : c.Tandem (x >>= f) (y >>= g) := by
  cases h with
  | ok hstep => exact k _ _ hstep
  | refused hrel => exact .refused hrel
  | left hf => exact .left hf
  | right hf => exact .right hf

namespace InStep

theorem refuse (h : c.InStep st tw) (f : Fault) : c.Tandem (st.refuse f) (tw.refuse f) :=
  .refused h.program

theorem isOpen_eq (h : c.InStep st tw) : st.isOpen = tw.isOpen := by
  rw [isOpen, isOpen, h.mode]

theorem header_eq (h : c.InStep st tw) : st.info.header.isSome = tw.info.header.isSome :=
  c.header h.program

theorem config_eq (h : c.InStep st tw) : st.info.config.isSome = tw.info.config.isSome :=
  c.config h.program

theorem isComplete_eq (h : c.InStep st tw) : st.info.isComplete = tw.info.isComplete := by
  rw [Info.isComplete, Info.isComplete, h.header_eq, h.config_eq]

theorem discard (h : c.rel st.program tw.program) : c.InStep st.discard tw.discard :=
  ⟨.idle, rfl, .refl _, h⟩

theorem openBlock (h : c.InStep st tw) (mode : Mode) :
    c.Tandem (st.openBlock mode) (tw.openBlock mode) := by
  rw [Assembler.openBlock, Assembler.openBlock, h.isComplete_eq, h.isOpen_eq]
  split
  · exact h.refuse _
  · split
    · exact h.refuse _
    · exact .ok ⟨.idle, rfl, .refl _, h.program⟩

theorem closeBlock (h : c.InStep st tw) :
    c.Tandem (st.closeBlock reserve) (tw.closeBlock reserve') := by
  rw [Assembler.closeBlock, Assembler.closeBlock, h.slots.compileBlock_eq]
  cases compileBlock tw.slots with
  | error f => exact h.refuse f
  | ok block =>
    dsimp only
    rcases c.push block h.program with
      ⟨x, y, hx, hy, hrel⟩ | ⟨e, hx, hy⟩ | ⟨e, hx, hexcused⟩ | ⟨e, hy, hexcused⟩
    · rw [show st.blocks.push reserve block = .ok x from hx,
        show tw.blocks.push reserve' block = .ok y from hy]
      exact .ok (discard hrel)
    · rw [show st.blocks.push reserve block = .error e from hx,
        show tw.blocks.push reserve' block = .error e from hy]
      exact h.refuse _
    · rw [show st.blocks.push reserve block = .error e from hx]
      exact .left hexcused
    · rw [show tw.blocks.push reserve' block = .error e from hy]
      exact .right hexcused

theorem endBlock (h : c.InStep st tw) : c.Tandem (st.endBlock reserve) (tw.endBlock reserve') := by
  rw [Assembler.endBlock, Assembler.endBlock, h.isOpen_eq]
  split
  · exact h.closeBlock
  · exact h.refuse _

theorem selectAxis (h : c.InStep st tw) (axis : Axis) :
    c.Tandem (st.selectAxis axis) (tw.selectAxis axis) := by
  rw [Assembler.selectAxis, Assembler.selectAxis, h.slots.holds_eq]
  split
  · exact h.refuse _
  · exact .ok ⟨.axis axis, h.mode, h.slots, h.program⟩

variable {token token' : String}

theorem startTuple (h : c.InStep st tw) (htoken : Text.folded token = Text.folded token') :
    c.Tandem (st.startTuple token) (tw.startTuple token') := by
  have hmotion (axis : Axis) :
      c.Tandem
        (if st.isOpen then .ok st >>= Assembler.selectAxis axis
          else st.openBlock .implicit >>= Assembler.selectAxis axis)
        (if tw.isOpen then .ok tw >>= Assembler.selectAxis axis
          else tw.openBlock .implicit >>= Assembler.selectAxis axis) := by
    rw [h.isOpen_eq]
    split
    · exact h.selectAxis axis
    · exact (h.openBlock .implicit).bind fun _ _ hmid => hmid.selectAxis axis
  unfold Assembler.startTuple
  rw [Axis.ofSymbol_congr (Text.sameName_iff.2 htoken)]
  cases Axis.ofSymbol token'
  case x | y | z | a => exact hmotion _
  case info =>
    dsimp only
    rw [h.isOpen_eq]
    split
    · exact h.refuse _
    · exact .ok ⟨.axis .info, h.mode, h.slots, h.program⟩
  all_goals exact h.refuse _

theorem setMnemonic (h : c.InStep st tw) (axis : Axis)
    (htoken : Text.folded token = Text.folded token') :
    c.Tandem (st.setMnemonic axis token) (tw.setMnemonic axis token') := by
  have hnamed : c.Tandem (.ok { st with progress := .tuple axis token [] })
      (.ok { tw with progress := .tuple axis token' [] }) :=
    .ok ⟨.tuple htoken rfl, h.mode, h.slots, h.program⟩
  unfold Assembler.setMnemonic
  rw [Mnemonic.ofSymbol?_congr (Text.sameName_iff.2 htoken)]
  cases Mnemonic.ofSymbol? token' with
  | none => exact h.refuse _
  | some m =>
    dsimp only
    split
    · split
      · exact hnamed
      · exact h.refuse _
    · split
      · split
        · exact h.refuse _
        · exact hnamed
      · exact h.refuse _

variable {op other : Opcode}

theorem setInfo (h : c.InStep st tw) (hop : op.Alike other) :
    c.Tandem (st.setInfo op) (tw.setInfo other) := by
  unfold Assembler.setInfo
  rw [hop.compileOpcode_eq, hop.mnemonic_eq, h.header_eq, h.config_eq]
  cases compileOpcode other with
  | error f => exact h.refuse f
  | ok w =>
    dsimp only
    split
    · split
      · exact h.refuse _
      · exact .ok ⟨.idle, h.mode, h.slots, c.addHeader h.program hop⟩
    · split
      · exact h.refuse _
      · exact .ok ⟨.idle, h.mode, h.slots, c.addConfig h.program hop⟩
    · exact h.refuse _

theorem complete (h : c.InStep st tw) (hop : op.Alike other) :
    c.Tandem (st.complete op) (tw.complete other) := by
  unfold Assembler.complete
  rw [hop.axis]
  split
  · exact h.setInfo hop
  · split
    · exact .ok ⟨.idle, h.mode, h.slots.set _ hop, h.program⟩
    · exact h.refuse _

variable {axis : Axis} {m n : String} {args more : List (Option String)}

theorem addArgument (h : c.InStep st tw) (hm : Text.folded m = Text.folded n)
    (hargs : args.map (Option.map Text.folded) = more.map (Option.map Text.folded))
    (htoken : Text.folded token = Text.folded token') :
    c.Tandem (st.addArgument axis m args token) (tw.addArgument axis n more token') := by
  have harg : (argument? token).map Text.folded = (argument? token').map Text.folded := by
    rw [argument?, argument?, Text.isEmpty_congr htoken]
    split
    · rfl
    · exact congrArg some htoken
  have hall : (args ++ [argument? token]).map (Option.map Text.folded) =
      (more ++ [argument? token']).map (Option.map Text.folded) := by
    rw [List.map_append, List.map_append, hargs, List.map_singleton, List.map_singleton, harg]
  have hlength : (args ++ [argument? token]).length = (more ++ [argument? token']).length := by
    simpa using congrArg List.length hall
  show c.Tandem
    (if (args ++ [argument? token]).length < 3 then
      .ok { st with progress := .tuple axis m (args ++ [argument? token]) }
    else st.complete (.ofArgs axis m (args ++ [argument? token])))
    (if (more ++ [argument? token']).length < 3 then
      .ok { tw with progress := .tuple axis n (more ++ [argument? token']) }
    else tw.complete (.ofArgs axis n (more ++ [argument? token'])))
  rw [hlength]
  split
  · exact .ok ⟨.tuple hm hall, h.mode, h.slots, h.program⟩
  · exact h.complete (.ofArgs axis hm hall)

theorem readToken (h : c.InStep st tw) (htoken : Text.folded token = Text.folded token') :
    c.Tandem (st.readToken reserve token) (tw.readToken reserve' token') := by
  unfold Assembler.readToken
  rw [Keyword.ofSymbol?_congr htoken]
  have hprogress := h.progress
  cases hst : st.progress <;> cases htw : tw.progress <;> rw [hst, htw] at hprogress <;>
    cases hprogress
  case idle.idle =>
    cases Keyword.ofSymbol? token' with
    | none =>
      dsimp only
      rw [Text.isEmpty_congr htoken]
      split
      · exact .ok h
      · exact h.startTuple htoken
    | some k =>
      cases k with
      | opening => exact h.openBlock .explicit
      | closing => exact h.endBlock
  case axis.axis axis =>
    cases Keyword.ofSymbol? token' with
    | none => exact h.setMnemonic axis htoken
    | some k => exact h.refuse _
  case tuple.tuple axis m args n more hm hargs =>
    have hlength : args.length = more.length := by simpa using congrArg List.length hargs
    dsimp only
    rw [hlength]
    split
    · exact h.refuse _
    · split
      · exact h.refuse _
      · exact (h.complete (.ofArgs axis hm hargs)).bind fun _ _ hmid => hmid.endBlock
      · exact h.addArgument hm hargs htoken

theorem endLine (h : c.InStep st tw) : c.Tandem (st.endLine reserve) (tw.endLine reserve') := by
  have hclose {st tw : Assembler} (h : c.InStep st tw) :
      c.Tandem (if st.mode = .implicit then st.closeBlock reserve else .ok st)
        (if tw.mode = .implicit then tw.closeBlock reserve' else .ok tw) := by
    rw [h.mode]
    split
    · exact h.closeBlock
    · exact .ok h
  unfold Assembler.endLine
  have hprogress := h.progress
  cases hst : st.progress <;> cases htw : tw.progress <;> rw [hst, htw] at hprogress <;>
    cases hprogress
  case idle.idle => exact hclose h
  case axis.axis => exact h.refuse _
  case tuple.tuple axis m args n more hm hargs =>
    have hlength : args.length = more.length := by simpa using congrArg List.length hargs
    dsimp only
    rw [hlength]
    split
    · exact h.refuse _
    · exact (h.complete (.ofArgs axis hm hargs)).bind fun _ _ => hclose

theorem readTokens {tokens tokens' : List String} (h : c.InStep st tw)
    (htokens : List.Forall₂ (fun s t => Text.folded s = Text.folded t) tokens tokens') :
    c.Tandem (st.readTokens reserve tokens) (tw.readTokens reserve' tokens') := by
  induction htokens generalizing st tw with
  | nil => exact h.endLine
  | cons htoken _ ih => exact (h.readToken htoken).bind fun _ _ => ih

end InStep

/-- Both go on, or both have been stopped by the same fault, or one by a fault that is excused. -/
inductive Abreast (c : Coupling reserve reserve') : Assembler → Assembler → Prop where
  | inStep {st tw : Assembler} : c.InStep st tw →
      st.failed.map Error.fault = tw.failed.map Error.fault → Abreast c st tw
  | left {st tw : Assembler} {e : Error} : st.failed = some e → c.excused e.fault → Abreast c st tw
  | right {st tw : Assembler} {e : Error} : tw.failed = some e → c.excused e.fault → Abreast c st tw

theorem Abreast.unexcused (h : c.Abreast st tw) (hst : ∀ e ∈ st.failed, ¬ c.excused e.fault)
    (htw : ∀ e ∈ tw.failed, ¬ c.excused e.fault) :
    c.InStep st tw ∧ st.failed.map Error.fault = tw.failed.map Error.fault := by
  cases h with
  | inStep hstep hfault => exact ⟨hstep, hfault⟩
  | left he hexcused => exact absurd hexcused (hst _ he)
  | right he hexcused => exact absurd hexcused (htw _ he)

theorem abreast_stop {e e' : Error} (h : c.rel st.program tw.program) (he : e.fault = e'.fault) :
    c.Abreast (st.stop e) (tw.stop e') :=
  .inStep ⟨.idle, rfl, .refl _, h⟩ (congrArg some he)

def CountsAlike (c : Coupling reserve reserve') (st tw : Assembler) : Prop :=
  (maxLine ≤ st.line ↔ maxLine ≤ tw.line) ∨ c.excused .lineNumberOverflow

theorem InStep.lineStep {tokens tokens' : List String} {next next' : Assembler}
    (h : c.InStep st tw) (hnone : st.failed = none) (htwNone : tw.failed = none)
    (hcount : c.CountsAlike st tw)
    (htokens : List.Forall₂ (fun s t => Text.folded s = Text.folded t) tokens tokens')
    (hline : LineStep reserve tokens st next) (hline' : LineStep reserve' tokens' tw next') :
    c.Abreast next next' := by
  have hadvance : c.InStep st.advance tw.advance := ⟨h.progress, h.mode, h.slots, h.program⟩
  have htandem := hadvance.readTokens htokens
  cases hline with
  | ignored hfailed => simp [hnone] at hfailed
  | uncounted _ hfull =>
    cases hline' with
    | ignored hfailed => simp [htwNone] at hfailed
    | uncounted => exact abreast_stop h.program rfl
    | read _ hroom => exact .left rfl (hcount.resolve_left fun hiff => by omega)
    | refused _ hroom => exact .left rfl (hcount.resolve_left fun hiff => by omega)
  | read _ hroom hread =>
    rw [hread] at htandem
    cases hline' with
    | ignored hfailed => simp [htwNone] at hfailed
    | uncounted _ hfull => exact .right rfl (hcount.resolve_left fun hiff => by omega)
    | read _ _ hread' =>
      rw [hread'] at htandem
      cases htandem with
      | ok hnext =>
        have hkeeps : next.failed = st.failed := (readTokens_law hread).1.2
        have hkeeps' : next'.failed = tw.failed := (readTokens_law hread').1.2
        exact .inStep hnext (by rw [hkeeps, hkeeps', hnone, htwNone])
    | refused _ _ hread' =>
      rw [hread'] at htandem
      cases htandem with
      | right hexcused => exact .right rfl hexcused
  | refused _ hroom hread =>
    rw [hread] at htandem
    cases hline' with
    | ignored hfailed => simp [htwNone] at hfailed
    | uncounted _ hfull => exact .right rfl (hcount.resolve_left fun hiff => by omega)
    | read _ _ hread' =>
      rw [hread'] at htandem
      cases htandem with
      | left hexcused => exact .left rfl hexcused
    | refused _ _ hread' =>
      rw [hread'] at htandem
      cases htandem with
      | refused hrel => exact abreast_stop hrel rfl
      | left hexcused => exact .left rfl hexcused
      | right hexcused => exact .right rfl hexcused

theorem Abreast.readLine {line line' : String} (h : c.Abreast st tw) (hst : st.Settled)
    (htw : tw.Settled) (hcount : st.failed = none → c.CountsAlike st tw)
    (htokens : List.Forall₂ (fun s t => Text.folded s = Text.folded t) (tokensOf line)
      (tokensOf line')) :
    c.Abreast (st.readLine reserve line) (tw.readLine reserve' line') := by
  have hstays {mid : Assembler} {e : Error} (he : mid.failed = some e) (spare : Reserve)
      (text : String) : mid.readLine spare text = mid := readLine_of_failed (by simp [he]) text
  cases h with
  | left he hexcused =>
    rw [hstays he]
    exact .left he hexcused
  | right he hexcused =>
    rw [hstays he]
    exact .right he hexcused
  | inStep hstep hfault =>
    cases hfailed : st.failed with
    | some e =>
      obtain ⟨e', he', -⟩ := Option.map_eq_some_iff.1 ((hfault.symm).trans (by rw [hfailed]; rfl))
      rw [hstays hfailed, hstays he']
      exact .inStep hstep hfault
    | none =>
      have htwNone : tw.failed = none := by
        rwa [hfailed, Option.map_none, eq_comm, Option.map_eq_none_iff] at hfault
      exact hstep.lineStep hfailed htwNone (hcount hfailed) htokens (hst.line line) (htw.line line')

theorem InStep.finish (h : c.InStep st tw)
    (hfault : st.failed.map Error.fault = tw.failed.map Error.fault) :
    (∃ e e', st.finish = .error e ∧ tw.finish = .error e' ∧ e.fault = e'.fault) ∨
      st.finish = .ok st.program ∧ tw.finish = .ok tw.program := by
  cases hfailed : st.failed with
  | some e =>
    rw [hfailed, Option.map_some, eq_comm, Option.map_eq_some_iff] at hfault
    obtain ⟨e', he', hsame⟩ := hfault
    exact .inl ⟨e, e', by simp [Assembler.finish, hfailed], by simp [Assembler.finish, he'],
      hsame.symm⟩
  | none =>
    rw [hfailed, Option.map_none, eq_comm, Option.map_eq_none_iff] at hfault
    have hidle : decide (st.progress ≠ .idle) = decide (tw.progress ≠ .idle) :=
      decide_eq_decide.2 (not_congr h.progress.idle_iff)
    simp only [Assembler.finish, hfailed, hfault, h.isOpen_eq, hidle, ← Option.not_isSome,
      h.header_eq, h.config_eq]
    split
    · exact .inl ⟨_, _, rfl, rfl, rfl⟩
    · split
      · exact .inl ⟨_, _, rfl, rfl, rfl⟩
      · split
        · exact .inl ⟨_, _, rfl, rfl, rfl⟩
        · exact .inr ⟨rfl, rfl⟩

end Coupling

end PulseMill
