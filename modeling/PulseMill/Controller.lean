import PulseMill.BlockArray
import PulseMill.Bus
import PulseMill.Status
set_option autoImplicit false

namespace PulseMill

inductive HardwareError where
  | fault (status : Status)
  | emergencyStop (status : Status)
  | timeout (status : Status) (polls : Nat)
  | sentinelMismatch (offset : Nat) (expected actual : UInt32)
  | interfaceVersion (expected actual : UInt32)
  | registerTest (ordinal : Nat) (expected actual : UInt32)
  deriving DecidableEq, Repr

namespace HardwareError

def status? : HardwareError → Option Status
  | fault s | emergencyStop s | timeout s _ => some s
  | _ => none

def message : HardwareError → String
  | fault s => s!"hardware reported an error, status {s}"
  | emergencyStop s => s!"emergency stop asserted, status {s}"
  | timeout s polls => s!"no response after {polls} status polls, status {s}"
  | sentinelMismatch offset expected actual =>
    s!"sentinel at offset 0x{Text.hexDigits 2 offset} read {Text.hexWord actual}, " ++
      s!"expected {Text.hexWord expected}"
  | interfaceVersion expected actual => s!"interface version {actual}, expected {expected}"
  | registerTest ordinal expected actual =>
    s!"register {ordinal} failed self test: wrote {Text.hexWord expected}, " ++
      s!"read {Text.hexWord actual}"

end HardwareError

namespace Controller

structure Settings where
  pollLimit : UInt32 := 1000000
  startOnCommit : Bool := true
  checkOnStage : Bool := true
  deriving DecidableEq, Repr

abbrev Attempt := ExceptT HardwareError Drive

def status : Drive Status := do return ⟨← Bus.read .status⟩

def checkStatus (s : Status) : Except HardwareError Status :=
  if s.isStopped then .error (.emergencyStop s)
  else if s.isError then .error (.fault s)
  else .ok s

def checkedStatus : Attempt Status := do checkStatus (← status)

def zeroWritable : Drive Unit := Register.writable.forM fun r => Bus.write r 0

def expectSentinel (r : Register) (expected : UInt32) : Attempt Unit := do
  let actual ← Bus.read r
  if actual ≠ expected then
    Bus.note .warn fun _ => s!"sentinel {r.label} read {Text.hexWord actual}"
    throw (.sentinelMismatch r.offset expected actual)

def expectVersion : Attempt Unit := do
  let actual ← Bus.read .version
  if actual ≠ Register.interfaceVersion then
    throw (.interfaceVersion Register.interfaceVersion actual)

/-- Makes sure that the register map is the one described here, and zeroes what may
be written. Where it is shown, the log takes a status read of its own. -/
def setUp (v : Verbosity) : Attempt Unit := do
  expectSentinel .sentinel0 Register.sentinel0Value
  expectSentinel .sentinel1 Register.sentinel1Value
  expectVersion
  zeroWritable
  if v.shows .debug then
    let s ← status
    Bus.note .debug fun _ => s!"controller initialized, status {s}"

def expectRegister (ordinal : Nat) (r : Register) (expected : UInt32) : Attempt Unit := do
  let actual ← Bus.read r
  if actual ≠ expected then
    Bus.note .warn fun _ =>
      s!"register {ordinal} ({r.label}) wrote {Text.hexWord expected} read {Text.hexWord actual}"
    throw (.registerTest ordinal expected actual)

def testPatterns : List UInt32 := [0, 0xFFFFFFFF, 0x55555555, 0xAAAAAAAA]

def testPattern (pattern : UInt32) : Attempt Unit := do
  Bus.note .debug fun _ => s!"register test pattern {Text.hexWord pattern}"
  Register.staging.zipIdx.forM fun (r, ordinal) => do
    Bus.write r pattern
    expectRegister ordinal r pattern

/-- All registers are written before any is read back. Otherwise two that share a
place would still look right. -/
def testOrdinals : Attempt Unit := do
  Register.staging.zipIdx.forM fun (r, ordinal) => Bus.write r (.ofNat ordinal)
  Register.staging.zipIdx.forM fun (r, ordinal) => expectRegister ordinal r (.ofNat ordinal)

def selfTest : Attempt Unit := do
  testPatterns.forM testPattern
  testOrdinals
  zeroWritable

def reset : Drive Unit := Bus.write .command Command.reset

def emergencyStop : Drive Status := do
  Bus.write .command Command.stop
  let s ← status
  Bus.note .warn fun _ => s!"emergency stop requested, status {s}"
  return s

def clearSticky : Drive Unit := Bus.write .command Command.clearSticky

def enableMotion : Attempt Status := do
  Bus.write .command Command.enable
  checkedStatus

def commit (start : Bool) : Drive Unit :=
  Bus.write .command (if start then Command.commit ||| Command.enable else Command.commit)

def axisStaging (axis : HardwareAxis) (w : AxisWords) : List (HardwareAxis × AxisField × UInt32) :=
  [(axis, .rate, w.rate), (axis, .count, w.count), (axis, .width, w.width),
    (axis, .instruction, w.instruction)]

def staging (b : Block) : List (HardwareAxis × AxisField × UInt32) :=
  axisStaging .x b.x ++ axisStaging .y b.y ++ axisStaging .z b.z ++ axisStaging .a b.a

def stageWord (cfg : Settings) (axis : HardwareAxis) (field : AxisField) (w : UInt32) :
    Attempt Unit := do
  Bus.write (.staged axis field) w
  if cfg.checkOnStage then
    let s ← status
    if s.isError then
      Bus.note .warn fun _ => s!"error while staging {axis.name} {field.name}, status {s}"
      throw (.fault s)

def stage (cfg : Settings) (b : Block) : Attempt Unit :=
  (staging b).forM fun (axis, field, w) => stageWord cfg axis field w

/-- Polls the status until it is ready. An emergency stop or an error ends the wait
even if the status is ready too. `made` polls lie behind, `more` may follow the next. -/
def poll (ready : Status → Bool) (made more : Nat) : Attempt Status := do
  let s ← status
  Bus.note .trace fun _ => s!"poll {made} status {s}"
  if s.isStopped then
    Bus.note .warn fun _ => s!"emergency stop while waiting, status {s}"
    throw (.emergencyStop s)
  if s.isError then
    Bus.note .warn fun _ => s!"error while waiting, status {s}"
    throw (.fault s)
  if ready s then return s
  match more with
  | 0 =>
    Bus.note .warn fun _ => s!"gave up after {made + 1} polls, status {s}"
    throw (.timeout s (made + 1))
  | more + 1 => poll ready (made + 1) more

def pollUntil (cfg : Settings) (ready : Status → Bool) : Attempt Status :=
  poll ready 0 (cfg.pollLimit.toNat - 1)

def awaitRoom (cfg : Settings) : Attempt Status := pollUntil cfg fun s => !s.isFull

def awaitIdle (cfg : Settings) : Attempt Status := pollUntil cfg Status.isIdle

def load (cfg : Settings) (b : Block) (start : Bool) : Attempt Status := do
  stage cfg b
  let _ ← awaitRoom cfg
  commit start
  let s ← checkedStatus
  Bus.note .debug fun _ => s!"block committed, status {s}"
  return s

def prepare (cfg : Settings) (b : Block) : Attempt Unit := do
  stage cfg b
  let _ ← awaitRoom cfg

/-- Commits blocks one after the other, and tells how many were committed and what
ended the row. `sent` were committed before. -/
def deliver (cfg : Settings) (sent : Nat) : List Block → Drive (Nat × Except HardwareError Unit)
  | [] => return (sent, .ok ())
  | b :: more => do
    match ← (prepare cfg b).run with
    | .error e => return (sent, .error e)
    | .ok () =>
      commit cfg.startOnCommit
      match ← checkedStatus.run with
      | .error e => return (sent + 1, .error e)
      | .ok _ => deliver cfg (sent + 1) more

/-- Streams the blocks from the cursor on, and tells how many there were. The cursor
moves past each block as it is committed, so that after an error the next call goes
on with the first block not committed yet. -/
def execute (cfg : Settings) (a : BlockArray Block) :
    Drive (Except HardwareError Nat × BlockArray Block) := do
  let (sent, ended) ← deliver cfg 0 a.rest
  let next := a.seek (a.cursor + sent)
  match ended with
  | .error e => return (.error e, next)
  | .ok () =>
    Bus.note .debug fun _ => s!"executed {sent} blocks, {a.length} in program"
    return (.ok sent, next)

abbrev Group := Vector UInt32 4

def writeOutputs (g : Group) : Drive Unit :=
  Bank.all.forM fun bank => Bus.write (.gpioOutput bank) (g.get bank)

def readInputs : Drive Group := do
  let w0 ← Bus.read (.gpioInput 0)
  let w1 ← Bus.read (.gpioInput 1)
  let w2 ← Bus.read (.gpioInput 2)
  let w3 ← Bus.read (.gpioInput 3)
  return #v[w0, w1, w2, w3]

end Controller

end PulseMill
