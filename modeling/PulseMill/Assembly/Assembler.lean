import PulseMill.Assembly.Compile
import PulseMill.Program
import PulseMill.Text.Cut
set_option autoImplicit false

/-!
The block language, read line by line.

    INFO, HEADER, 1, 0, 0
    INFO, CONFIG, 4, 0, 0
    begin
      X, CW,  100, 16, 4
      Y, CCW,  50,  8, 2
    end
    X, CW, 100, 16, 4, Y, CCW, 50, 8, 2

A line is a row of tokens. They make up tuples of an axis, a mnemonic and at most
three arguments, and the tuples make up blocks: from `begin` to `end`, or, where a
line starts with a tuple, up to its end.
-/

namespace PulseMill

open Assembly (Fault Error)

inductive Progress where
  | idle
  | axis (axis : Axis)
  | tuple (axis : Axis) (mnemonic : String) (args : List (Option String))
  deriving DecidableEq, Repr

inductive Phase where
  | idle | axis | instruction | arg0 | arg1 | arg2 | complete
  deriving DecidableEq, Repr

def Phase.name : Phase → String
  | idle => "Idle"
  | axis => "Axis"
  | instruction => "Instruction"
  | arg0 => "Arg0"
  | arg1 => "Arg1"
  | arg2 => "Arg2"
  | complete => "Complete"

def Progress.phase : Progress → Phase
  | idle => .idle
  | axis _ => .axis
  | tuple _ _ args =>
    match args.length with
    | 0 => .instruction
    | 1 => .arg0
    | 2 => .arg1
    | _ => .arg2

/-- Whether a block is open, and what ends it: `end`, or also the end of the line. -/
inductive Mode where
  | closed | explicit | implicit
  deriving DecidableEq, Repr

inductive Keyword where
  | opening | closing
  deriving DecidableEq, Repr

def Keyword.name : Keyword → String
  | opening => "begin"
  | closing => "end"

def Keyword.ofSymbol? (s : String) : Option Keyword :=
  if Text.sameName s "begin" then some opening
  else if Text.sameName s "end" then some closing
  else none

theorem Keyword.ofSymbol?_eq_some_iff {s : String} {k : Keyword} :
    ofSymbol? s = some k ↔ Text.sameName s k.name := by
  have hnot : ¬ (Text.sameName s "begin" ∧ Text.sameName s "end") := by
    rintro ⟨hbegin, hend⟩
    rw [Text.sameName_iff] at hbegin hend
    exact absurd (hbegin.symm.trans hend) (by decide)
  cases k <;> cases hbegin : Text.sameName s "begin" <;> cases hend : Text.sameName s "end" <;>
    simp_all [ofSymbol?, name]

structure Assembler where
  line : Nat := 0
  progress : Progress := .idle
  mode : Mode := .closed
  slots : Slots := {}
  info : Info := {}
  blocks : BlockArray Block
  failed : Option Error := none
  deriving DecidableEq, Repr

namespace Assembler

/-- A token or line is read, or refused with what had been read before the fault. -/
abbrev Step := Except (Fault × Assembler) Assembler

def refuse (st : Assembler) (f : Fault) : Step := .error (f, st)

def isOpen (st : Assembler) : Bool := st.mode ≠ .closed

def discard (st : Assembler) : Assembler :=
  { st with slots := {}, progress := .idle, mode := .closed }

def openBlock (st : Assembler) (mode : Mode) : Step :=
  if !st.info.isComplete then st.refuse .beginBeforeHeader
  else if st.isOpen then st.refuse .nestedBegin
  else .ok { st.discard with mode }

def closeBlock (reserve : Reserve) (st : Assembler) : Step :=
  match Assembly.compileBlock st.slots with
  | .error f => st.refuse f
  | .ok block =>
    match st.blocks.push reserve block with
    | .error e => st.refuse (.blockArray e)
    | .ok blocks => .ok { st with blocks }.discard

def endBlock (reserve : Reserve) (st : Assembler) : Step :=
  if st.isOpen then st.closeBlock reserve else st.refuse .endWithoutBegin

def startTuple (st : Assembler) (token : String) : Step :=
  match Axis.ofSymbol token with
  | .x | .y | .z | .a => do
    let axis := Axis.ofSymbol token
    let st ← if st.isOpen then .ok st else st.openBlock .implicit
    if st.slots.holds axis then st.refuse .duplicateAxis
    else .ok { st with progress := .axis axis }
  | .info =>
    if st.isOpen then st.refuse .infoInsideBlock
    else .ok { st with progress := .axis .info }
  | .b | .c | .u | .v | .w => st.refuse .unsupportedAxis
  | .unknown => st.refuse .unknownAxis
  | .idle => st.refuse .malformedAxisState

/-- The file's own lines take the pseudo instructions, and the axes take the others. The mnemonic
is copied, for which there is taken to be memory. -/
def setMnemonic (st : Assembler) (axis : Axis) (token : String) : Step :=
  match Mnemonic.ofSymbol? token with
  | none => st.refuse .unknownOpcode
  | some m =>
    if axis = .info then
      if m.isPseudo then .ok { st with progress := .tuple axis token [] }
      else st.refuse .invalidInfoInstruction
    else if axis.isMotion then
      if m.isPseudo then st.refuse .pseudoInstructionInBlock
      else .ok { st with progress := .tuple axis token [] }
    else st.refuse .malformedAxisState

def setInfo (st : Assembler) (op : Opcode) : Step :=
  match Assembly.compileOpcode op with
  | .error f => st.refuse f
  | .ok _ =>
    match op.mnemonic.bind Mnemonic.ofSymbol? with
    | some .header =>
      if st.info.header.isSome then st.refuse .duplicateHeader
      else .ok { st with info := { st.info with header := some op }, progress := .idle }
    | some .config =>
      if st.info.config.isSome then st.refuse .duplicateConfig
      else .ok { st with info := { st.info with config := some op }, progress := .idle }
    | _ => st.refuse .invalidInfoInstruction

def complete (st : Assembler) (op : Opcode) : Step :=
  if op.axis = .info then st.setInfo op
  else if op.axis.isMotion then
    .ok { st with slots := st.slots.set op.axis op, progress := .idle }
  else st.refuse .malformedAxisState

/-- An empty argument counts as left out, and any other is copied, for which there is taken to be
memory. The third one ends the tuple. -/
def addArgument (st : Assembler) (axis : Axis) (mnemonic : String) (args : List (Option String))
    (token : String) : Step :=
  let args := args ++ [if token.isEmpty then none else some token]
  if args.length < 3 then .ok { st with progress := .tuple axis mnemonic args }
  else st.complete (.ofArgs axis mnemonic args)

def readToken (reserve : Reserve) (st : Assembler) (token : String) : Step :=
  match st.progress, Keyword.ofSymbol? token with
  | .idle, some .opening => st.openBlock .explicit
  | .idle, some .closing => st.endBlock reserve
  | .idle, none => if token.isEmpty then .ok st else st.startTuple token
  | .axis _, some _ => st.refuse .missingOpcode
  | .axis axis, none => st.setMnemonic axis token
  | .tuple axis mnemonic args, keyword? =>
    if args.length ≥ 3 then st.refuse .malformedAxisState
    else
      match keyword? with
      | some .opening => st.refuse .nestedBegin
      | some .closing => do (← st.complete (.ofArgs axis mnemonic args)).endBlock reserve
      | none => st.addArgument axis mnemonic args token

def endLine (reserve : Reserve) (st : Assembler) : Step := do
  let st ← match st.progress with
    | .idle => .ok st
    | .axis _ => st.refuse .missingOpcode
    | .tuple axis mnemonic args =>
      if args.length ≥ 3 then st.refuse .malformedAxisState
      else st.complete (.ofArgs axis mnemonic args)
  if st.mode = .implicit then st.closeBlock reserve else .ok st

def readTokens (reserve : Reserve) (st : Assembler) : List String → Step
  | [] => st.endLine reserve
  | token :: more => do (← st.readToken reserve token).readTokens reserve more

def tokensOf (line : String) : List String := (Text.tokens line.toList).map String.ofList

def maxLine : Nat := UInt32.size - 1

/-- Reads a line. A fault ends the reading of the file: the open block is dropped,
and what had been completed before stays. -/
def readLine (reserve : Reserve) (st : Assembler) (line : String) : Assembler :=
  if st.failed.isSome then st
  else if st.line ≥ maxLine then
    { st.discard with failed := some ⟨none, .lineNumberOverflow⟩ }
  else
    let st := { st with line := st.line + 1 }
    match tokensOf line with
    | [] => st
    | tokens =>
      match st.readTokens reserve tokens with
      | .ok st => st
      | .error (f, st) => { st.discard with failed := some ⟨some st.line, f⟩ }

def finish (st : Assembler) : Except Error Program :=
  match st.failed with
  | some e => .error e
  | none =>
    if st.isOpen || st.progress ≠ .idle then .error ⟨some st.line, .unterminatedBlock⟩
    else if st.info.header.isNone then .error ⟨none, .missingHeader⟩
    else if st.info.config.isNone then .error ⟨none, .missingConfig⟩
    else .ok ⟨st.info, st.blocks⟩

def ofBlocks (blocks : BlockArray Block) : Assembler := { blocks }

def readLines (reserve : Reserve) (st : Assembler) (lines : List String) : Assembler :=
  lines.foldl (readLine reserve) st

theorem readLine_of_failed {reserve : Reserve} {st : Assembler} (h : st.failed.isSome)
    (line : String) : st.readLine reserve line = st := by simp [readLine, h]

end Assembler

def sourceLines (source : String) : List String :=
  (Text.lines source.toList).map String.ofList

def assemble (reserve : Reserve) (source : String) : Except Error Program := do
  let blocks ← (BlockArray.withCapacity reserve 16 16).mapError fun e => ⟨none, .blockArray e⟩
  ((Assembler.ofBlocks blocks).readLines reserve (sourceLines source)).finish

end PulseMill
