import PulseMill.Bus
import PulseMill.Window
set_option autoImplicit false

namespace PulseMill

inductive SystemError where
  | noEntry
  | outOfMemory
  | permission
  | notDirectory
  | isDirectory
  | nameTooLong
  | tooLarge
  | nulInName
  | notText
  | other (text : String)
  deriving DecidableEq, Repr

def SystemError.message : SystemError → String
  | noEntry => "No such file or directory (os error 2)"
  | outOfMemory => "Cannot allocate memory (os error 12)"
  | permission => "Permission denied (os error 13)"
  | notDirectory => "Not a directory (os error 20)"
  | isDirectory => "Is a directory (os error 21)"
  | nameTooLong => "File name too long (os error 36)"
  | tooLarge => "Value too large for defined data type (os error 75)"
  | nulInName => "file name contained an unexpected NUL byte"
  | notText => "stream did not contain valid UTF-8"
  | other text => text

inductive DeviceRefusal where
  | unopened (e : SystemError)
  | unmapped (e : SystemError)
  deriving DecidableEq, Repr

namespace Shell

inductive Query where
  | readFile (path : String)
  | writeFile (path : String) (bytes : ByteArray)
  | pageSize
  | openDevice (path : String) (m : Mapping)
  | openSimulator
  | bus (q : Bus.Query)
  | print (text : String)
  | pause (ms : UInt64)

def Answer : Query → Type
  | .readFile _ => Except SystemError ByteArray
  | .writeFile .. => Except SystemError Unit
  | .pageSize => Int64
  | .openDevice .. => Except DeviceRefusal Unit
  | .bus q => Bus.Answer q
  | .openSimulator | .print _ | .pause _ => Unit

end Shell

abbrev Shell := Dialogue Shell.Answer

namespace Shell

def readFile (path : String) : Shell (Except SystemError ByteArray) := .ask (.readFile path) .done

def writeFile (path : String) (bytes : ByteArray) : Shell (Except SystemError Unit) :=
  .ask (.writeFile path bytes) .done

def pageSize : Shell Int64 := .ask .pageSize .done

def openDevice (path : String) (m : Mapping) : Shell (Except DeviceRefusal Unit) :=
  .ask (.openDevice path m) .done

def openSimulator : Shell Unit := .ask .openSimulator .done

def print (text : String) : Shell Unit := .ask (.print text) .done

def pause (ms : UInt64) : Shell Unit := .ask (.pause ms) .done

def drive {α : Type} (d : Drive α) : Shell α := d.expand fun q => .ask (.bus q) .done

def note (level : Level) (text : Unit → String) : Shell Unit := drive (Bus.note level text)

end Shell

end PulseMill
