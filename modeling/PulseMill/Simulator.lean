import PulseMill.Bus
import PulseMill.BlockArray
import PulseMill.Status
set_option autoImplicit false

/-!
A stand-in for the pulse generator: its registers, and the queue of committed blocks.
It can be told to have a wiring fault.
-/

namespace PulseMill

inductive DecoderFault where
  /-- Reads of the register come back with bits set and bits cleared. -/
  | stuckBits (register : Register) (high low : UInt32)
  /-- Accesses to the register land on the target. -/
  | aliased (register target : Register)
  deriving DecidableEq, Repr

structure Simulator where
  words : Words := .initial
  /-- Committed blocks that have not retired, the oldest first. -/
  queue : List Block := []
  depth : Nat := 16
  running : Bool := false
  /-- While motion is enabled, each status read retires a block. -/
  autoDrain : Bool := true
  forcedError : Bool := false
  overflow : Bool := false
  emergency : Bool := false
  sticky : Bool := false
  fault : Option DecoderFault := none
  /-- How many blocks have been committed, and how many have retired. The counts have no upper bound
  here; `counted` tells what a machine word shows of them. -/
  committed : Nat := 0
  retired : Nat := 0
  deriving DecidableEq

namespace Simulator

/-- What a counter of one machine word shows after so many counts: it stays at the greatest word. -/
def counted : Nat → Nat
  | 0 => 0
  | n + 1 => min (counted n + 1) maxIndex

theorem counted_of_le {n : Nat} (h : n ≤ maxIndex) : counted n = n := by
  induction n with
  | zero => rfl
  | succ n ih => rw [counted, ih (Nat.le_of_succ_le h), Nat.min_eq_left h]

def maxDepth : Nat := 16

def withDepth (s : Simulator) (depth : Nat) : Simulator :=
  { s with depth := max 1 (min depth maxDepth) }

def setAutoDrain (s : Simulator) (on : Bool) : Simulator := { s with autoDrain := on }

def setFault (s : Simulator) (fault : Option DecoderFault) : Simulator := { s with fault }

def forceError (s : Simulator) (on : Bool) : Simulator := { s with forcedError := on }

def trip (s : Simulator) : Simulator := { s with emergency := true, running := false }

def setWord (s : Simulator) (r : Register) (w : UInt32) : Simulator :=
  { s with words := s.words.put r w }

def word (s : Simulator) (r : Register) : UInt32 := s.words.get r

def setInput (s : Simulator) (bank : Bank) (w : UInt32) : Simulator :=
  s.setWord (.gpioInput bank) w

def retireOne (s : Simulator) : Simulator :=
  match s.queue with
  | [] => s
  | _ :: queue =>
    { s with
      queue
      retired := s.retired + 1
      sticky := s.sticky || (queue.isEmpty && s.running) }

def drain (s : Simulator) : Nat → Simulator
  | 0 => s
  | n + 1 => if s.queue.isEmpty then s else s.retireOne.drain n

def isFull (s : Simulator) : Bool := s.queue.length ≥ s.depth

def isBusy (s : Simulator) : Bool := s.running && !s.queue.isEmpty

def statusBits (s : Simulator) : UInt32 :=
  let bit (on : Bool) (b : UInt32) : UInt32 := if on then b else 0
  bit s.isFull Status.full ||| bit s.queue.isEmpty Status.empty |||
    bit (s.forcedError || s.overflow) Status.error |||
    (if s.isBusy then Status.busy else Status.idle) |||
    bit s.emergency Status.stop ||| bit s.sticky Status.sticky

def stagedWords (s : Simulator) (axis : HardwareAxis) : AxisWords :=
  { instruction := s.word (.staged axis .instruction)
    rate := s.word (.staged axis .rate)
    count := s.word (.staged axis .count)
    width := s.word (.staged axis .width) }

def stagedBlock (s : Simulator) : Block :=
  { x := s.stagedWords .x, y := s.stagedWords .y, z := s.stagedWords .z, a := s.stagedWords .a }

/-- Queues the staged block. A full queue drops it and raises an error. -/
def commitStaged (s : Simulator) : Simulator :=
  if s.isFull then { s with overflow := true }
  else { s with queue := s.queue ++ [s.stagedBlock], committed := s.committed + 1 }

def flush (s : Simulator) : Simulator :=
  { s with queue := [], running := false, overflow := false, emergency := false, sticky := false }

/-- A command may ask for several things. They are done in this order, and while a stop
is latched nothing is committed or started. -/
def command (s : Simulator) (w : UInt32) : Simulator :=
  let asks (bit : UInt32) : Bool := w &&& bit ≠ 0
  let s := if asks Command.reset then s.flush else s
  let s := if asks Command.clearSticky then { s with sticky := false } else s
  let s := if asks Command.stop then s.trip else s
  let s := if asks Command.commit && !s.emergency then s.commitStaged else s
  let s := if asks Command.enable && !s.emergency then { s with running := true } else s
  s.setWord .command w

def resolve (s : Simulator) (r : Register) : Register :=
  match s.fault with
  | some (.aliased register target) => if register = r then target else r
  | _ => r

def distort (s : Simulator) (r : Register) (w : UInt32) : UInt32 :=
  match s.fault with
  | some (.stuckBits register high low) => if register = r then (w ||| high) &&& ~~~low else w
  | _ => w

def readStatus (s : Simulator) : UInt32 × Simulator :=
  let s := if s.running && s.autoDrain then s.retireOne else s
  (s.statusBits, s)

def read (r : Register) (s : Simulator) : UInt32 × Simulator :=
  let r := s.resolve r
  let (w, next) := match r with
    | .status => s.readStatus
    | r => (s.word r, s)
  (s.distort r w, next)

def write (r : Register) (w : UInt32) (s : Simulator) : Simulator :=
  match s.resolve r with
  | .command => s.command w
  | r@(.staged ..) | r@(.gpioOutput _) | r@(.expansionOutput _) => s.setWord r w
  | .status | .version | .gpioInput _ | .expansionInput _ | .sentinel0 | .sentinel1 => s

def file : RegisterFile Simulator := ⟨read, write⟩

end Simulator

end PulseMill
