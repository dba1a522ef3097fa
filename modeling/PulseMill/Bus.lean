import PulseMill.Dialogue
import PulseMill.Log
import PulseMill.Register
set_option autoImplicit false

namespace PulseMill

namespace Bus

inductive Query where
  | read (r : Register)
  | write (r : Register) (w : UInt32)
  /-- A line for the log. Its text is worked out only if it is shown. -/
  | note (level : Level) (text : Unit → String)

def Answer : Query → Type
  | .read _ => UInt32
  | .write .. | .note .. => Unit

end Bus

abbrev Drive := Dialogue Bus.Answer

namespace Bus

def read (r : Register) : Drive UInt32 := .ask (.read r) .done

def write (r : Register) (w : UInt32) : Drive Unit := .ask (.write r w) .done

def note (level : Level) (text : Unit → String) : Drive Unit := .ask (.note level text) .done

end Bus

/-- What answers on the bus. Both kinds of access may change it. -/
structure RegisterFile (σ : Type) where
  read : Register → σ → UInt32 × σ
  write : Register → UInt32 → σ → σ

namespace RegisterFile

variable {σ α : Type}

def answer (file : RegisterFile σ) (v : Verbosity) :
    (q : Bus.Query) → σ × List Line → Bus.Answer q × (σ × List Line)
  | .read r, (s, log) =>
    let (w, s) := file.read r s
    (w, s, log)
  | .write r w, (s, log) => ((), file.write r w s, log)
  | .note level text, (s, log) =>
    ((), s, if v.shows level then ⟨level, text ()⟩ :: log else log)

def run (file : RegisterFile σ) (v : Verbosity) (d : Drive α) (s : σ) : α × σ × List Line :=
  let (a, s, log) := d.run (file.answer v) (s, [])
  (a, s, log.reverse)

end RegisterFile

abbrev Words := Vector UInt32 Register.words

namespace Words

def zero : Words := Vector.replicate _ 0

def get (ws : Words) (r : Register) : UInt32 :=
  have := r.word_lt
  ws[r.word]

def put (ws : Words) (r : Register) (w : UInt32) : Words := ws.set r.word w r.word_lt

@[simp] theorem get_put_self (ws : Words) (r : Register) (w : UInt32) :
    (ws.put r w).get r = w := by simp [get, put]

theorem get_put_of_ne {ws : Words} {r s : Register} {w : UInt32} (h : s ≠ r) :
    (ws.put r w).get s = ws.get s := by
  have h : r.word ≠ s.word := fun e => h (Register.word_injective e).symm
  simp [get, put, Vector.getElem_set_ne, h]

/-- Zero everywhere but for the words by which the register file is known. -/
def initial : Words :=
  ((zero.put .version Register.interfaceVersion).put .sentinel0 Register.sentinel0Value).put
    .sentinel1 Register.sentinel1Value

end Words

end PulseMill
