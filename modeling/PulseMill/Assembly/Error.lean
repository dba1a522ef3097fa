import PulseMill.BlockArray
set_option autoImplicit false

namespace PulseMill.Assembly

inductive Fault where
  | beginBeforeHeader
  | nestedBegin
  | endWithoutBegin
  | unknownAxis
  | unsupportedAxis
  | malformedAxisState
  | missingOpcode
  | unknownOpcode
  | duplicateAxis
  | duplicateHeader
  | duplicateConfig
  | infoInsideBlock
  | invalidInfoInstruction
  | pseudoInstructionInBlock
  | unterminatedBlock
  | missingHeader
  | missingConfig
  | negativeNumber
  | malformedNumber
  | numberOutOfRange
  /-- There is no memory to copy a token. The `Assembler` takes it that there always is; this fault
  is raised by `InPlace`. -/
  | outOfMemory
  | lineNumberOverflow
  | blockArray (e : OutOfMemory)
  deriving DecidableEq, Repr

inductive Category where
  | syntactic | numeric | resource
  deriving DecidableEq, Repr

namespace Fault

def message : Fault → String
  | beginBeforeHeader => "begin before both HEADER and CONFIG were given"
  | nestedBegin => "begin while a block is already open"
  | endWithoutBegin => "end without an open block"
  | unknownAxis => "unknown axis symbol"
  | unsupportedAxis => "axis is not part of a four axis block"
  | malformedAxisState => "opcode without a selected axis"
  | missingOpcode => "axis without an opcode"
  | unknownOpcode => "unknown opcode mnemonic"
  | duplicateAxis => "axis given twice in one block"
  | duplicateHeader => "HEADER given more than once"
  | duplicateConfig => "CONFIG given more than once"
  | infoInsideBlock => "INFO lines are only allowed outside a block"
  | invalidInfoInstruction => "INFO only takes HEADER or CONFIG"
  | pseudoInstructionInBlock => "HEADER and CONFIG are not motion instructions"
  | unterminatedBlock => "block still open at end of input"
  | missingHeader => "program has no HEADER"
  | missingConfig => "program has no CONFIG"
  | negativeNumber => "negative numbers are not allowed"
  | malformedNumber => "malformed number"
  | numberOutOfRange => "number does not fit in 32 bits"
  | outOfMemory => "out of memory copying a symbol"
  | lineNumberOverflow => "too many lines"
  | blockArray e => e.message

def category : Fault → Category
  | negativeNumber | malformedNumber | numberOutOfRange => .numeric
  | outOfMemory | lineNumberOverflow | blockArray _ => .resource
  | _ => .syntactic

end Fault

structure Error where
  line : Option Nat
  fault : Fault
  deriving DecidableEq, Repr

def Error.message (e : Error) : String :=
  match e.line with
  | none => e.fault.message
  | some n => s!"line {n}: {e.fault.message}"

end PulseMill.Assembly
