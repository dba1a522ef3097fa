import PulseMill.Program
set_option autoImplicit false

namespace PulseMill

def AxisWords.mnemonic (w : AxisWords) : Except InvalidCode Mnemonic :=
  (Instruction.ofWord w.instruction).map (Mnemonic.ofInstruction w.hasPulses)

namespace Listing

def tuple (axis : Axis) (w : AxisWords) : Except InvalidCode (List String) := do
  let m ← w.mnemonic
  return [axis.name, m.name, w.rate.toNat.repr, w.count.toNat.repr, w.width.toNat.repr]

def blockTokens (b : Block) : Except InvalidCode (List String) := do
  let tuples ← b.axes.mapM fun (axis, w) => tuple axis w
  return "begin" :: tuples.flatten ++ ["end"]

def line (tokens : List String) : String := ", ".intercalate tokens

def block (b : Block) : Except InvalidCode String := (blockTokens b).map line

def infoTokens (op : Opcode) : List String :=
  "INFO" :: op.mnemonic.getD "NOP" :: op.args.map (·.getD "0")

def infoLines (i : Info) : List String :=
  (i.header.toList ++ i.config.toList).map fun op => line (infoTokens op)

def lines (p : Program) : Except InvalidCode (List String) := do
  return infoLines p.info ++ (← p.blocks.toList.mapM block)

def program (p : Program) : Except InvalidCode String := do
  return String.join ((← lines p).map (· ++ "\n"))

end Listing

end PulseMill
