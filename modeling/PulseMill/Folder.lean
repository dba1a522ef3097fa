import PulseMill.Shell
set_option autoImplicit false

namespace PulseMill

abbrev Route := List String

structure Folder where
  files : List (Route × ByteArray) := []

namespace Folder

def file? (f : Folder) (r : Route) : Option ByteArray :=
  (f.files.find? fun entry => entry.1 = r).map Prod.snd

def isDirectory (f : Folder) (r : Route) : Bool :=
  r.isEmpty || f.files.any fun entry => r.length < entry.1.length && entry.1.take r.length = r

def put (f : Folder) (r : Route) (bytes : ByteArray) : Folder :=
  if f.files.any fun entry => entry.1 = r then
    { files := f.files.map fun entry => if entry.1 = r then (r, bytes) else entry }
  else { files := f.files ++ [(r, bytes)] }

/-- Goes down from `start` name by name. The last name may be new. -/
def walk (f : Folder) (start : Route) : List String → Except SystemError Route
  | [] => .ok start
  | name :: more =>
    if name = "" || name = "." then f.walk start more
    else if name = ".." then
      if start.isEmpty then .error .noEntry else f.walk start.dropLast more
    else
      let next := start ++ [name]
      if more.isEmpty || f.isDirectory next then f.walk next more
      else if (f.file? next).isSome then .error .notDirectory
      else .error .noEntry

def maxName : Nat := 255
def maxPath : Nat := 4095

def route (f : Folder) (path : String) : Except SystemError Route :=
  let names := (path.toList.splitOn '/').map String.ofList
  if path.toList.contains '\x00' then .error .nulInName
  else if path.utf8ByteSize > maxPath || names.any fun name => name.utf8ByteSize > maxName then
    .error .nameTooLong
  else if names.head? = some "" then .error .noEntry
  else f.walk [] names

def read (f : Folder) (path : String) : Except SystemError (Route × ByteArray) := do
  let r ← f.route path
  match f.file? r with
  | some bytes => return (r, bytes)
  | none => throw (if f.isDirectory r then .isDirectory else .noEntry)

def write (f : Folder) (path : String) (bytes : ByteArray) : Except SystemError Folder := do
  let r ← f.route path
  if f.isDirectory r then throw .isDirectory
  return f.put r bytes

end Folder

end PulseMill
