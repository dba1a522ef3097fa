import PulseMill.Assembly.Assembler
set_option autoImplicit false

/-!
The assembler as it works on its memory. A tuple is written into the slot of its axis while it is
read, and which axes are given is marked beside the slots, so that much has to be put back when a
block ends or something goes wrong.
-/

namespace PulseMill

open Assembly (Fault Error compileOpcode compileBlock)

/-- The axes given in the open block, by their positions in it. -/
structure AxisSet where
  marks : Vector Bool 4 := #v[false, false, false, false]
  deriving DecidableEq, Repr

namespace AxisSet

def contains (s : AxisSet) (axis : Axis) : Bool :=
  (axis.slot?.bind fun i => s.marks[i]?).getD false

def insert (s : AxisSet) (axis : Axis) : AxisSet :=
  match axis.slot? with
  | some i => ⟨s.marks.setIfInBounds i true⟩
  | none => s

end AxisSet

def Opcode.setArg (op : Opcode) (arg : Option String) : Fin 3 → Opcode
  | 0 => { op with arg0 := arg }
  | 1 => { op with arg1 := arg }
  | 2 => { op with arg2 := arg }

structure InPlace where
  line : Nat := 0
  phase : Phase := .idle
  axis : Axis := .idle
  mode : Mode := .closed
  assigned : AxisSet := {}
  /-- The tuples of the open block, with what has been read of the last one. -/
  slots : Slots := {}
  info : Info := {}
  blocks : BlockArray Block
  failed : Option Error := none
  deriving DecidableEq, Repr

namespace InPlace

/-- Whether there is memory to copy a token, where the assembler has come to it. -/
abbrev Copies := InPlace → String → Bool

/-- What has been written stays written when a token or line is refused. -/
abbrev Step := Except (Fault × InPlace) InPlace

def refuse (d : InPlace) (f : Fault) : Step := .error (f, d)

def resetBlock (d : InPlace) : InPlace :=
  { d with slots := {}, assigned := {}, axis := .idle, phase := .idle }

def discardBlock (d : InPlace) : InPlace := { d.resetBlock with mode := .closed }

def openBlock (d : InPlace) (mode : Mode) : Step :=
  if d.info.header.isNone || d.info.config.isNone then d.refuse .beginBeforeHeader
  else if d.mode ≠ .closed then d.refuse .nestedBegin
  else .ok { d.resetBlock with mode }

def closeBlock (reserve : Reserve) (d : InPlace) : Step :=
  match compileBlock d.slots with
  | .error f => d.refuse f
  | .ok block =>
    match d.blocks.push reserve block with
    | .error e => d.refuse (.blockArray e)
    | .ok blocks => .ok { d with blocks }.discardBlock

def endBlock (reserve : Reserve) (d : InPlace) : Step :=
  if d.mode = .closed then d.refuse .endWithoutBegin else d.closeBlock reserve

def writeSlot (d : InPlace) (f : Opcode → Opcode) : Step :=
  match d.slots.get? d.axis with
  | some op => .ok { d with slots := d.slots.set d.axis (f op) }
  | none => d.refuse .malformedAxisState

def selectAxis (d : InPlace) (axis : Axis) : Step := do
  let d ← { d with axis }.writeSlot fun _ => { axis }
  return { d with phase := .axis }

def selectFree (axis : Axis) (d : InPlace) : Step :=
  if d.assigned.contains axis then d.refuse .duplicateAxis else d.selectAxis axis

def startAxis (d : InPlace) (token : String) : Step :=
  match Axis.ofSymbol token with
  | .x | .y | .z | .a => do
    let d ← if d.mode = .closed then d.openBlock .implicit else .ok d
    d.selectFree (Axis.ofSymbol token)
  | .info => if d.mode ≠ .closed then d.refuse .infoInsideBlock else d.selectAxis .info
  | .b | .c | .u | .v | .w => d.refuse .unsupportedAxis
  | .unknown => d.refuse .unknownAxis
  | .idle => d.refuse .malformedAxisState

def writeMnemonic (copies : Copies) (d : InPlace) (token : String) : Step :=
  if copies d token then do
    let d ← d.writeSlot fun op => { op with mnemonic := some token }
    return { d with phase := .instruction }
  else d.refuse .outOfMemory

def setOpcode (copies : Copies) (d : InPlace) (token : String) : Step :=
  match Mnemonic.ofSymbol? token with
  | none => d.refuse .unknownOpcode
  | some m =>
    match d.axis, m.isPseudo with
    | .info, false => d.refuse .invalidInfoInstruction
    | .info, true => d.writeMnemonic copies token
    | .x, true | .y, true | .z, true | .a, true => d.refuse .pseudoInstructionInBlock
    | .x, false | .y, false | .z, false | .a, false => d.writeMnemonic copies token
    | _, _ => d.refuse .malformedAxisState

/-- An empty argument is not copied. It counts as left out. -/
def setArgument (copies : Copies) (d : InPlace) (i : Fin 3) (token : String) (next : Phase) :
    Step :=
  if token.isEmpty || copies d token then do
    let d ← d.writeSlot fun op => op.setArg (if token.isEmpty then none else some token) i
    return { d with phase := next }
  else d.refuse .outOfMemory

def keepInfo (d : InPlace) (op : Opcode) : Step :=
  match compileOpcode op with
  | .error f => d.refuse f
  | .ok _ =>
    match op.mnemonic.bind Mnemonic.ofSymbol? with
    | some .header =>
      if d.info.header.isSome then d.refuse .duplicateHeader
      else .ok { d with info := { d.info with header := some op }, axis := .idle, phase := .idle }
    | some .config =>
      if d.info.config.isSome then d.refuse .duplicateConfig
      else .ok { d with info := { d.info with config := some op }, axis := .idle, phase := .idle }
    | _ => d.refuse .invalidInfoInstruction

/-- A line of the file's own is taken out of its slot before it is looked at. -/
def completeAxis (d : InPlace) : Step :=
  let d := { d with phase := .complete }
  match d.axis with
  | .info => { d with slots := { d.slots with info := {} } }.keepInfo d.slots.info
  | .x | .y | .z | .a =>
    .ok { d with assigned := d.assigned.insert d.axis, axis := .idle, phase := .idle }
  | _ => d.refuse .malformedAxisState

def readToken (reserve : Reserve) (copies : Copies) (d : InPlace) (token : String) : Step :=
  match d.phase, Keyword.ofSymbol? token with
  | .idle, some .opening => d.openBlock .explicit
  | .idle, some .closing => d.endBlock reserve
  | .idle, none => if token.isEmpty then .ok d else d.startAxis token
  | .axis, some _ => d.refuse .missingOpcode
  | .axis, none => d.setOpcode copies token
  | .instruction, some .closing | .arg0, some .closing | .arg1, some .closing => do
    (← d.completeAxis).endBlock reserve
  | .instruction, some .opening | .arg0, some .opening | .arg1, some .opening =>
    d.refuse .nestedBegin
  | .instruction, none => d.setArgument copies 0 token .arg0
  | .arg0, none => d.setArgument copies 1 token .arg1
  | .arg1, none => do (← d.setArgument copies 2 token .arg2).completeAxis
  | .arg2, _ | .complete, _ => d.refuse .malformedAxisState

def endLine (reserve : Reserve) (d : InPlace) : Step := do
  let d ← match d.phase with
    | .idle => .ok d
    | .axis => d.refuse .missingOpcode
    | .instruction | .arg0 | .arg1 => d.completeAxis
    | .arg2 | .complete => d.refuse .malformedAxisState
  if d.mode = .implicit then d.closeBlock reserve else .ok d

def readTokens (reserve : Reserve) (copies : Copies) (d : InPlace) : List String → Step
  | [] => d.endLine reserve
  | token :: more => do (← d.readToken reserve copies token).readTokens reserve copies more

def fail (d : InPlace) (e : Error) : InPlace := { d.discardBlock with failed := some e }

def settle : Step → InPlace
  | .ok d => d
  | .error (f, d) => d.fail ⟨some d.line, f⟩

def advance (d : InPlace) : InPlace := { d with line := d.line + 1 }

def readLine (reserve : Reserve) (copies : Copies) (d : InPlace) (line : String) : InPlace :=
  if d.failed.isSome then d
  else if d.line ≥ Assembler.maxLine then d.fail ⟨none, .lineNumberOverflow⟩
  else
    match Assembler.tokensOf line with
    | [] => d.advance
    | tokens => settle (d.advance.readTokens reserve copies tokens)

def ofBlocks (blocks : BlockArray Block) : InPlace := { blocks }

def readLines (reserve : Reserve) (copies : Copies) (d : InPlace) (lines : List String) : InPlace :=
  lines.foldl (readLine reserve copies) d

end InPlace

end PulseMill
