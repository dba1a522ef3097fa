import PulseMill.Bus
import PulseMill.Text.Digits
set_option autoImplicit false

namespace PulseMill

inductive Access where
  | read (r : Register) (w : UInt32)
  | write (r : Register) (w : UInt32)
  deriving DecidableEq, Repr

namespace Access

def register : Access → Register
  | read r _ | write r _ => r

def value : Access → UInt32
  | read _ w | write _ w => w

def isRead : Access → Bool
  | read .. => true
  | write .. => false

def text (a : Access) : String :=
  (if a.isRead then "r" else "w") ++ Text.hexDigits 2 a.register.offset ++ "=" ++
    Text.hexDigits 1 a.value.toNat

end Access

structure Recorder where
  words : Words := .initial
  script : List UInt32
  accesses : List Access := []

namespace Recorder

def nextStatus : List UInt32 → UInt32 × List UInt32
  | [] => (0, [])
  | [w] => (w, [w])
  | w :: more => (w, more)

def read (r : Register) (rec : Recorder) : UInt32 × Recorder :=
  match r with
  | .status =>
    let (w, script) := nextStatus rec.script
    (w, { rec with script, accesses := .read r w :: rec.accesses })
  | r =>
    let w := rec.words.get r
    (w, { rec with accesses := .read r w :: rec.accesses })

/-- Stores every word. A status word that was written is never read back. -/
def write (r : Register) (w : UInt32) (rec : Recorder) : Recorder :=
  { rec with words := rec.words.put r w, accesses := .write r w :: rec.accesses }

def file : RegisterFile Recorder := ⟨read, write⟩

def takeAccesses (rec : Recorder) : List Access × Recorder :=
  (rec.accesses.reverse, { rec with accesses := [] })

end Recorder

end PulseMill
