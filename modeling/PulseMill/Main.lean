import PulseMill.Device
import PulseMill.Session
import PulseMill.Simulator
set_option autoImplicit false

namespace PulseMill.Terminal

inductive Attached where
  | nothing
  | simulator (s : Simulator)
  | device (path : String) (m : Mapping) (bytes : ByteArray)

def systemError : IO.Error → SystemError
  | .noFileOrDirectory .. => .noEntry
  | .permissionDenied .. => .permission
  | .resourceExhausted .. => .outOfMemory
  | .inappropriateType .. => .isDirectory
  | e => .other (toString e)

def guarded {α : Type} (act : IO α) : IO (Except SystemError α) := do
  match ← act.toBaseIO with
  | .ok a => return .ok a
  | .error e => return .error (systemError e)

def showLine (l : Line) : IO Unit := IO.eprintln l.render

def readRegister (bus : IO.Ref Attached) (r : Register) : IO UInt32 := do
  match ← bus.get with
  | .nothing => return 0
  | .simulator s =>
    let (word, s) := s.read r
    bus.set (.simulator s)
    return word
  | .device _ m bytes => return Device.read m r bytes

def writeRegister (bus : IO.Ref Attached) (r : Register) (word : UInt32) : IO Unit := do
  match ← bus.get with
  | .nothing => return
  | .simulator s => bus.set (.simulator (s.write r word))
  | .device path m bytes =>
    let bytes := Device.write m r word bytes
    bus.set (.device path m bytes)
    IO.FS.writeBinFile path bytes

def openDevice (bus : IO.Ref Attached) (path : String) (m : Mapping) :
    IO (Except DeviceRefusal Unit) := do
  match ← guarded (IO.FS.readBinFile path) with
  | .error e => return .error (.unopened e)
  | .ok bytes =>
    if bytes.size < m.base + m.length then return .error (.unmapped .outOfMemory)
    bus.set (.device path m bytes)
    return .ok ()

def answer (bus : IO.Ref Attached) (v : Verbosity) : (q : Shell.Query) → IO (Shell.Answer q)
  | .readFile path => guarded (IO.FS.readBinFile path)
  | .writeFile path bytes => guarded (IO.FS.writeBinFile path bytes)
  | .pageSize => return (4096 : Int64)
  | .openDevice path m => openDevice bus path m
  | .openSimulator => bus.set (.simulator {})
  | .bus (.read r) => readRegister bus r
  | .bus (.write r word) => writeRegister bus r word
  | .bus (.note level text) => if v.shows level then showLine ⟨level, text ()⟩ else return ()
  | .print text => IO.print text
  | .pause ms => IO.sleep (UInt32.ofNat (min ms.toNat (UInt32.size - 1)))

def perform (a : Arguments) : IO UInt32 := do
  let bus ← IO.mkRef Attached.nothing
  match ← (Session.perform a).run.interpret (answer bus a.verbosity) with
  | .ok () => return 0
  | .error e =>
    if a.verbosity.shows .error then showLine ⟨.error, e.message⟩
    return 1

end PulseMill.Terminal

def main (args : List String) : IO UInt32 := do
  match PulseMill.Arguments.parse? args with
  | some a => PulseMill.Terminal.perform a
  | none =>
    IO.eprintln "The arguments make no command."
    return 2
