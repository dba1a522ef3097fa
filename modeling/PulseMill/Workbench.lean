import PulseMill.Device
import PulseMill.Folder
import PulseMill.Session
import PulseMill.Simulator
set_option autoImplicit false

namespace PulseMill

inductive Target where
  | nothing
  | simulator (s : Simulator)
  | device (place : Route) (m : Mapping)

structure Workbench where
  folder : Folder
  target : Target := .nothing
  printed : String := ""
  log : List Line := []

namespace Workbench

def pageBytes : Nat := 4096

def maxMapping : Nat := 1 <<< 47 - pageBytes

def openDevice (w : Workbench) (path : String) (m : Mapping) :
    Except DeviceRefusal Workbench := do
  let (place, _) ← (w.folder.read path).mapError .unopened
  if m.length > maxMapping then throw (.unmapped .outOfMemory)
  if m.base + m.length > Window.fileLimit then throw (.unmapped .tooLarge)
  return { w with target := .device place m }

/-- With nothing on the bus all words are zero. -/
def readRegister (w : Workbench) (r : Register) : UInt32 × Workbench :=
  match w.target with
  | .nothing => (0, w)
  | .simulator s =>
    let (word, s) := s.read r
    (word, { w with target := .simulator s })
  | .device place m => (((w.folder.file? place).map (Device.read m r)).getD 0, w)

def writeRegister (w : Workbench) (r : Register) (word : UInt32) : Workbench :=
  match w.target with
  | .nothing => w
  | .simulator s => { w with target := .simulator (s.write r word) }
  | .device place m =>
    match w.folder.file? place with
    | none => w
    | some bytes => { w with folder := w.folder.put place (Device.write m r word bytes) }

def answer (v : Verbosity) : (q : Shell.Query) → Workbench → Shell.Answer q × Workbench
  | .readFile path, w => ((w.folder.read path).map Prod.snd, w)
  | .writeFile path bytes, w =>
    match w.folder.write path bytes with
    | .ok folder => (.ok (), { w with folder })
    | .error e => (.error e, w)
  | .pageSize, w => (.ofNat pageBytes, w)
  | .openDevice path m, w =>
    match w.openDevice path m with
    | .ok w => (.ok (), w)
    | .error e => (.error e, w)
  | .openSimulator, w => ((), { w with target := .simulator {} })
  | .bus (.read r), w => w.readRegister r
  | .bus (.write r word), w => ((), w.writeRegister r word)
  | .bus (.note level text), w =>
    ((), if v.shows level then { w with log := ⟨level, text ()⟩ :: w.log } else w)
  | .print text, w => ((), { w with printed := w.printed ++ text })
  | .pause _, w => ((), w)

def perform (w : Workbench) (a : Arguments) : Except Failure Unit × Workbench :=
  (Session.perform a).run.run (answer a.verbosity) w

def lines (w : Workbench) : List Line := w.log.reverse

end Workbench

end PulseMill
