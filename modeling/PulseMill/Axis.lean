import PulseMill.Text.Letters
set_option autoImplicit false

namespace PulseMill

inductive Axis where
  | idle
  | x | y | z | a | b | c | u | v | w
  /-- Carries the file's `HEADER` and `CONFIG` lines. -/
  | info
  | unknown
  deriving DecidableEq, Repr, Inhabited

namespace Axis

def name : Axis → String
  | idle => "IDLE"
  | x => "X"
  | y => "Y"
  | z => "Z"
  | a => "A"
  | b => "B"
  | c => "C"
  | u => "U"
  | v => "V"
  | w => "W"
  | info => "INFO"
  | unknown => "?"

def nameable : List Axis := [x, y, z, a, b, c, u, v, w, info]

def ofSymbol (s : String) : Axis :=
  (nameable.find? fun axis => Text.sameName axis.name s).getD unknown

theorem ofSymbol_name {axis : Axis} (h : axis ∈ nameable) : ofSymbol axis.name = axis := by
  simp only [nameable, List.mem_cons, List.not_mem_nil, or_false] at h
  rcases h with rfl | rfl | rfl | rfl | rfl | rfl | rfl | rfl | rfl | rfl <;> decide

theorem ofSymbol_congr {s t : String} (h : Text.sameName s t) : ofSymbol s = ofSymbol t := by
  have h := Text.sameName_iff.1 h
  simp [ofSymbol, Text.sameName, h]

theorem ofSymbol_eq_iff {s : String} {axis : Axis} (h : axis ∈ nameable) :
    ofSymbol s = axis ↔ Text.sameName axis.name s := by
  refine ⟨fun hs => ?_, fun hs => (ofSymbol_congr hs).symm.trans (ofSymbol_name h)⟩
  unfold ofSymbol at hs
  cases hfound : nameable.find? fun axis => Text.sameName axis.name s with
  | none =>
    rw [hfound] at hs
    obtain rfl : unknown = axis := hs
    exact absurd h (by decide)
  | some found =>
    rw [hfound] at hs
    obtain rfl : found = axis := hs
    have hsame := List.find?_some hfound
    exact hsame

/-- The axes of a block, in the order they are compiled, staged and listed. -/
def motion : List Axis := [x, y, z, a]

def isMotion : Axis → Bool
  | x | y | z | a => true
  | _ => false

theorem mem_motion {axis : Axis} : axis ∈ motion ↔ axis.isMotion := by
  cases axis <;> decide

theorem mem_nameable {axis : Axis} (h : axis.isMotion) : axis ∈ nameable := by
  cases axis <;> first | decide | cases h

def slot? : Axis → Option Nat
  | x => some 0
  | y => some 1
  | z => some 2
  | a => some 3
  | _ => none

def index : Axis → Nat
  | idle => 0
  | x => 1
  | y => 2
  | z => 3
  | a => 4
  | b => 5
  | c => 6
  | u => 7
  | v => 8
  | w => 9
  | info => 10
  | unknown => 11

def ofIndex? : Nat → Option Axis
  | 0 => some idle
  | 1 => some x
  | 2 => some y
  | 3 => some z
  | 4 => some a
  | 5 => some b
  | 6 => some c
  | 7 => some u
  | 8 => some v
  | 9 => some w
  | 10 => some info
  | 11 => some unknown
  | _ => none

@[simp] theorem ofIndex?_index (axis : Axis) : ofIndex? axis.index = some axis := by
  cases axis <;> rfl

theorem ofIndex?_eq_some {n : Nat} {axis : Axis} (h : ofIndex? n = some axis) :
    axis.index = n := by
  unfold ofIndex? at h
  split at h <;> cases h <;> rfl

end Axis

end PulseMill
