import PulseMill.Assembly.Error
import PulseMill.Text.Blank
set_option autoImplicit false

namespace PulseMill.Assembly

def digit? (base : Nat) (c : Char) : Option Nat :=
  let d? :=
    if c.isDigit then some (c.toNat - '0'.toNat)
    else if 'a' ≤ c ∧ c ≤ 'f' then some (c.toNat - 'a'.toNat + 10)
    else if 'A' ≤ c ∧ c ≤ 'F' then some (c.toNat - 'A'.toNat + 10)
    else none
  d?.filter (· < base)

/-- The base of a numeral, and its digits without what only marks the base. -/
def baseAndDigits : List Char → Nat × List Char
  | '0' :: 'x' :: ds => (16, ds)
  | '0' :: 'X' :: ds => (16, ds)
  | '0' :: c :: ds => (8, (c :: ds).dropWhile (· = '0'))
  | ds => (10, ds)

def value? (base : Nat) (ds : List Char) : Option Nat :=
  ds.foldlM (fun n c => (digit? base c).map (base * n + ·)) 0

theorem value?_append (base : Nat) (ds es : List Char) :
    value? base (ds ++ es) =
      (value? base ds).bind fun n =>
        es.foldlM (fun n c => (digit? base c).map (base * n + ·)) n := by
  simp [value?]

/-- A sign is refused, a minus with a fault of its own. No digits at all stand for
zero after octal zeros only. -/
def readNumeral (t : List Char) : Except Fault UInt32 :=
  if t.head? = some '-' then .error .negativeNumber
  else
    let (base, ds) := baseAndDigits t
    match value? base ds with
    | none => .error .malformedNumber
    | some n =>
      if ds.isEmpty && base ≠ 8 then .error .malformedNumber
      else if h : n < UInt32.size then .ok (UInt32.ofNatLT n h)
      else .error .numberOutOfRange

def readNumber : Option String → Except Fault UInt32
  | none => .ok 0
  | some s => readNumeral (Text.trim s.toList)

end PulseMill.Assembly
