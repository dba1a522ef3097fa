import PulseMill.Axis
import PulseMill.Mnemonic
set_option autoImplicit false

namespace PulseMill

structure Opcode where
  axis : Axis := .idle
  mnemonic : Option String := none
  arg0 : Option String := none
  arg1 : Option String := none
  arg2 : Option String := none
  deriving DecidableEq, Repr, Inhabited

namespace Opcode

def isEmpty (op : Opcode) : Bool := op.mnemonic.isNone

def isPseudo (op : Opcode) : Bool :=
  ((op.mnemonic.bind Mnemonic.ofSymbol?).map Mnemonic.isPseudo).getD false

def args (op : Opcode) : List (Option String) := [op.arg0, op.arg1, op.arg2]

def ofArgs (axis : Axis) (mnemonic : String) (args : List (Option String)) : Opcode :=
  { axis
    mnemonic := some mnemonic
    arg0 := args[0]?.join
    arg1 := args[1]?.join
    arg2 := args[2]?.join }

theorem args_ofArgs (axis : Axis) (m : String) (p q r : Option String) :
    (ofArgs axis m [p, q, r]).args = [p, q, r] := rfl

end Opcode

structure Slots where
  x : Opcode := {}
  y : Opcode := {}
  z : Opcode := {}
  a : Opcode := {}
  info : Opcode := {}
  deriving DecidableEq, Repr, Inhabited

namespace Slots

def get? (s : Slots) : Axis → Option Opcode
  | .x => some s.x
  | .y => some s.y
  | .z => some s.z
  | .a => some s.a
  | .info => some s.info
  | _ => none

def set (s : Slots) (axis : Axis) (op : Opcode) : Slots :=
  match axis with
  | .x => { s with x := op }
  | .y => { s with y := op }
  | .z => { s with z := op }
  | .a => { s with a := op }
  | .info => { s with info := op }
  | _ => s

theorem get?_set_self {s : Slots} {axis : Axis} {op : Opcode} (h : (s.get? axis).isSome) :
    (s.set axis op).get? axis = some op := by
  cases axis <;> simp_all [get?, set]

theorem get?_set_of_ne {s : Slots} {axis other : Axis} {op : Opcode} (h : other ≠ axis) :
    (s.set axis op).get? other = s.get? other := by
  cases axis <;> cases other <;> simp_all [get?, set]

def holds (s : Slots) (axis : Axis) : Bool :=
  match s.get? axis with
  | some op => !op.isEmpty
  | none => false

end Slots

end PulseMill
