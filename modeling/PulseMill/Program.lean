import PulseMill.BlockArray
import PulseMill.Opcode
set_option autoImplicit false

namespace PulseMill

/-- The file's own lines. They are checked and kept, but are no part of a block. -/
structure Info where
  header : Option Opcode := none
  config : Option Opcode := none
  deriving DecidableEq, Repr, Inhabited

def Info.isComplete (i : Info) : Bool := i.header.isSome && i.config.isSome

structure Program where
  info : Info
  blocks : BlockArray Block
  deriving DecidableEq, Repr

end PulseMill
