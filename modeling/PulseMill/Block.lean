import PulseMill.Axis
import PulseMill.Mnemonic
set_option autoImplicit false

namespace PulseMill

structure AxisWords where
  instruction : UInt32 := 0
  rate : UInt32 := 0
  count : UInt32 := 0
  width : UInt32 := 0
  deriving DecidableEq, Repr, Inhabited

def AxisWords.hasPulses (w : AxisWords) : Bool :=
  w.rate ≠ 0 || w.count ≠ 0 || w.width ≠ 0

structure Block where
  x : AxisWords := {}
  y : AxisWords := {}
  z : AxisWords := {}
  a : AxisWords := {}
  deriving DecidableEq, Repr, Inhabited

namespace Block

def axis? (b : Block) : Axis → Option AxisWords
  | .x => some b.x
  | .y => some b.y
  | .z => some b.z
  | .a => some b.a
  | _ => none

def axes (b : Block) : List (Axis × AxisWords) :=
  [(.x, b.x), (.y, b.y), (.z, b.z), (.a, b.a)]

theorem map_fst_axes (b : Block) : b.axes.map Prod.fst = Axis.motion := rfl

theorem mem_axes {b : Block} {axis : Axis} {w : AxisWords} :
    (axis, w) ∈ b.axes ↔ b.axis? axis = some w := by
  cases axis <;> simp [axes, axis?, eq_comm]

end Block

end PulseMill
