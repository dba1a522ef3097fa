import PulseMill.Arguments
import PulseMill.Assembly.Narration
import PulseMill.Controller
import PulseMill.Image
import PulseMill.Listing
import PulseMill.Settings
import PulseMill.Shell
set_option autoImplicit false

namespace PulseMill

inductive DeviceError where
  | window (e : WindowError)
  | unopened (device : String) (e : SystemError)
  | unmapped (span : UInt64) (address : Nat) (e : SystemError)

def DeviceError.message : DeviceError → String
  | window e => e.message
  | unopened device e => s!"cannot open {device}: {e.message}"
  | unmapped span address e =>
    s!"mmap of {Text.hex span.toNat} bytes at {Text.hex address} failed: {e.message}"

inductive Failure where
  | io (path : String) (e : SystemError)
  | config
  | assembler (e : Assembly.Error)
  | image (e : Image.ImageError)
  | disassembly (e : InvalidCode)
  | timing (e : TimingError)
  | device (e : DeviceError)
  | hardware (e : HardwareError)

def Failure.message : Failure → String
  | io path e => s!"{path}: {e.message}"
  | config => "bad configuration"
  | assembler e => e.message
  | image e => e.message
  | disassembly e => s!"cannot disassemble: {e.message}"
  | timing e => e.message
  | device e => e.message
  | hardware e => e.message

namespace Session

abbrev Task := ExceptT Failure Shell

def orFail {ε α : Type} (why : ε → Failure) (x : Except ε α) : Task α :=
  ExceptT.mk (pure (x.mapError why))

def note (level : Level) (text : String) : Task Unit := Shell.note level fun _ => text

def noteAll (lines : List Line) : Task Unit := lines.forM fun l => note l.level l.text

def reserve : Reserve := Reserve.machine Block

/-- What follows the last dot of a file's name. A dot in front of the name is none. -/
def extension? (path : String) : Option String :=
  let names := (path.toList.splitOn '/').filter fun n => !n.isEmpty && n ≠ ['.']
  match names.getLast? with
  | none | some ['.', '.'] => none
  | some name =>
    let after := (name.reverse.takeWhile (· ≠ '.')).reverse
    if after.length + 1 < name.length then some (String.ofList after) else none

def imageExtension : String := "mcnc"

def readBytes (path : String) : Task ByteArray := do
  orFail (.io path) (← Shell.readFile path)

def decodeImage (v : Verbosity) (bytes : ByteArray) : Task Program := do
  let program ← orFail .image (Image.decode reserve bytes.data.toList)
  if v.shows .trace then
    noteAll (BlockArray.empty.narrateGrowth program.blocks)
  return program

def assembleSource (v : Verbosity) (source : String) : Task Program := do
  if v.shows .debug then
    noteAll (narrateAssembly reserve source)
  orFail .assembler (PulseMill.assemble reserve source)

def loadProgram (v : Verbosity) (path : String) : Task Program := do
  let bytes ← readBytes path
  if extension? path = some imageExtension then decodeImage v bytes
  else
    match String.fromUTF8? bytes with
    | none => throw (.io path .notText)
    | some source => assembleSource v source

def printListing (program : Program) : Task Unit := do
  Shell.print (← orFail .disassembly (Listing.program program))

def loadSettings : Option String → Task Settings
  | none => return {}
  | some path => do
    match ← Shell.readFile path with
    | .error .isDirectory => throw .config
    | .error e => throw (.io path e)
    | .ok bytes =>
      match (String.fromUTF8? bytes).bind Settings.ofText? with
      | none => throw .config
      | some settings =>
        noteAll [settings.loadedLine path]
        return settings

def openDevice (w : Window) : Task Unit := do
  let m ← orFail (fun e => .device (.window e)) (w.mapping (← Shell.pageSize))
  match ← Shell.openDevice w.device m with
  | .error (.unopened e) => throw (.device (.unopened w.device e))
  | .error (.unmapped e) => throw (.device (.unmapped w.span m.address e))
  | .ok () =>
    note .debug s!"mapped {Text.hex w.span.toNat} bytes of {w.device} at {Text.hex m.address}"

def openTarget (settings : Settings) (simulate : Bool) : Task Unit := do
  if simulate then
    note .info "using the register simulator"
    Shell.openSimulator
  else openDevice settings.map

def attempt {α : Type} (d : Controller.Attempt α) : Task α :=
  ExceptT.mk ((Except.mapError .hardware) <$> Shell.drive d.run)

def drive {α : Type} (d : Drive α) : Task α := ExceptT.lift (Shell.drive d)

def assemble (v : Verbosity) (source : String) (output : Option String) : Task Unit := do
  let program ← loadProgram v source
  note .info s!"{source}: {program.blocks.length} blocks"
  match output with
  | none => printListing program
  | some path =>
    let bytes := Image.encode program
    orFail (.io path) (← Shell.writeFile path bytes.toByteArray)
    note .info s!"wrote {bytes.length} bytes to {path}"

def disasm (v : Verbosity) (image : String) : Task Unit := do
  printListing (← decodeImage v (← readBytes image))

/-- Sets up, resets, sends what there is to send, and waits until it is done. -/
def runProgram (v : Verbosity) (cfg : Controller.Settings) (blocks : BlockArray Block) :
    Controller.Attempt (Nat × Status) := do
  Controller.setUp v
  Controller.reset
  let sent ← ExceptT.mk (Prod.fst <$> Controller.execute cfg blocks)
  let s ← Controller.awaitIdle cfg
  return (sent, s)

def run (v : Verbosity) (settings : Settings) (simulate : Bool) (path : String) : Task Unit := do
  let program ← loadProgram v path
  openTarget settings simulate
  let (sent, s) ← attempt (runProgram v settings.controller program.blocks)
  note .info s!"{sent} blocks executed, status {s}"

def testRegisters (v : Verbosity) (settings : Settings) (simulate : Bool) : Task Unit := do
  openTarget settings simulate
  attempt (Controller.setUp v)
  if v.shows .info then
    let s ← drive Controller.status
    note .info s!"register map found, status {s}"
  attempt Controller.selfTest
  note .info "register test passed"

def pulseBlock (t : Timing) (hz : Float) (count widthNs : UInt32) : Except TimingError Block := do
  let rate ← t.rateOfHz hz
  let width ← t.widthOfNs widthNs
  return { x := { instruction := Instruction.cw.code, rate, count, width } }

def sendPulses (v : Verbosity) (cfg : Controller.Settings) (b : Block) :
    Controller.Attempt Status := do
  Controller.setUp v
  Controller.reset
  let _ ← Controller.load cfg b true
  Controller.awaitIdle cfg

def testPulse (v : Verbosity) (settings : Settings) (simulate : Bool) (hz : Float)
    (count widthNs : UInt32) : Task Unit := do
  let b ← orFail .timing (pulseBlock settings.timing hz count widthNs)
  note .info
    s!"{Decimal.ofFloat hz} Hz: rate {b.x.rate}, width {b.x.width}, {count} pulses"
  openTarget settings simulate
  let s ← attempt (sendPulses v settings.controller b)
  note .info s!"pulse train done, status {s}"

def walkingBit (bit : Nat) : Controller.Group :=
  Vector.ofFn fun i => if i.val = bit / 32 then 1 <<< UInt32.ofNat (bit % 32) else 0

def groupText (g : Controller.Group) : String :=
  "[" ++ ", ".intercalate (g.toList.map fun w => Text.hexDigits 8 w.toNat) ++ "]"

def testOutputs (v : Verbosity) (settings : Settings) (simulate : Bool) (delayMs : UInt64) :
    Task Unit := do
  openTarget settings simulate
  attempt (Controller.setUp v)
  (List.range 128).forM fun bit => do
    drive (Controller.writeOutputs (walkingBit bit))
    Shell.pause delayMs
  drive (Controller.writeOutputs (Vector.replicate 4 0))
  if v.shows .info then
    let g ← drive Controller.readInputs
    note .info s!"inputs {groupText g}"

/-- Carries out a command. The settings are read first, also by commands that need
none. -/
def perform (a : Arguments) : Task Unit := do
  let settings ← loadSettings a.config
  match a.command with
  | .assemble source output => assemble a.verbosity source output
  | .disasm image => disasm a.verbosity image
  | .run program => run a.verbosity settings a.simulate program
  | .testRegisters => testRegisters a.verbosity settings a.simulate
  | .testPulse hz count widthNs => testPulse a.verbosity settings a.simulate hz count widthNs
  | .testOutputs delayMs => testOutputs a.verbosity settings a.simulate delayMs

end Session

end PulseMill
