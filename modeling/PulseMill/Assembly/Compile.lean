import PulseMill.Assembly.Number
import PulseMill.Opcode
set_option autoImplicit false

namespace PulseMill.Assembly

def instructionWord (symbol : String) : Except Fault UInt32 :=
  match Mnemonic.ofSymbol? symbol with
  | some m => .ok m.instruction.code
  | none => .error .unknownOpcode

/-- Arguments are read in the order rate, count, width. An empty instruction is a
no-op, whatever its arguments. -/
def compileOpcode (op : Opcode) : Except Fault AxisWords :=
  match op.mnemonic with
  | none => .ok {}
  | some symbol => do
    let instruction ← instructionWord symbol
    let rate ← readNumber op.arg0
    let count ← readNumber op.arg1
    let width ← readNumber op.arg2
    return { instruction, rate, count, width }

def compileMotion (op : Opcode) : Except Fault AxisWords :=
  if op.isPseudo then .error .pseudoInstructionInBlock else compileOpcode op

def compileBlock (s : Slots) : Except Fault Block := do
  let x ← compileMotion s.x
  let y ← compileMotion s.y
  let z ← compileMotion s.z
  let a ← compileMotion s.a
  return { x, y, z, a }

@[simp] theorem compileMotion_empty : compileMotion {} = .ok {} := rfl

end PulseMill.Assembly
