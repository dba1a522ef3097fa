import PulseMill.Text.Digits
set_option autoImplicit false

namespace PulseMill

structure Status where
  bits : UInt32
  deriving DecidableEq, Repr, Inhabited

namespace Status

def full : UInt32 := 1
def empty : UInt32 := 2
def error : UInt32 := 4
def busy : UInt32 := 8
def idle : UInt32 := 16
def stop : UInt32 := 32
def sticky : UInt32 := 64

def has (s : Status) (bit : UInt32) : Bool := s.bits &&& bit ≠ 0

def isFull (s : Status) : Bool := s.has full

def isEmpty (s : Status) : Bool := s.has empty

def isError (s : Status) : Bool := s.has error

def isBusy (s : Status) : Bool := s.has busy

def isIdle (s : Status) : Bool := s.has idle

def isStopped (s : Status) : Bool := s.has stop

def hasRunDry (s : Status) : Bool := s.has sticky

def names : List (UInt32 × String) :=
  [(full, "FBF"), (empty, "FBE"), (error, "ERR"), (busy, "BSY"), (idle, "IDL"), (stop, "EMS"),
    (sticky, "SFE")]

def text (s : Status) : String :=
  let set := names.filterMap fun (bit, name) => if s.has bit then some name else none
  Text.hexWord s.bits ++ " [" ++ " ".intercalate set ++ "]"

end Status

instance : ToString Status := ⟨Status.text⟩

end PulseMill
