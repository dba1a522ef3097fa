import PulseMill.Register
import PulseMill.Text.Digits
set_option autoImplicit false

namespace PulseMill

structure Window where
  device : String := "/dev/mem"
  physicalBase : UInt64 := 0xFF200000
  bridgeOffset : UInt64 := 0
  span : UInt64 := 0x100
  deriving DecidableEq, Repr

inductive WindowError where
  | spanTooSmall (span : UInt64)
  | badAddress (address : Nat)
  deriving DecidableEq, Repr

def WindowError.message : WindowError → String
  | spanTooSmall span =>
    s!"window of {Text.hex span.toNat} bytes is smaller than the register file"
  | badAddress address => s!"address {Text.hex address} is not word aligned or out of range"

/-- Whole pages from `base` on, with the register file `delta` bytes into them. -/
structure Mapping where
  base : Nat
  delta : Nat
  length : Nat
  deriving DecidableEq, Repr

namespace Mapping

def place (m : Mapping) (r : Register) : Nat := m.delta + r.offset

def address (m : Mapping) : Nat := m.base + m.delta

end Mapping

namespace Window

def fileLimit : Nat := 1 <<< 63

def sum? (a b : UInt64) : Option UInt64 := if a + b < a then none else some (a + b)

theorem add_lt_iff {a b : UInt64} : a + b < a ↔ UInt64.size ≤ a.toNat + b.toNat := by
  have ha := a.toNat_lt
  have hb := b.toNat_lt
  rw [UInt64.lt_iff_toNat_lt, UInt64.toNat_add]
  simp only [UInt64.size]
  omega

theorem sum?_eq_none_iff {a b : UInt64} : sum? a b = none ↔ UInt64.size ≤ a.toNat + b.toNat := by
  rw [← add_lt_iff, sum?]
  split
  case isTrue hlarge => exact ⟨fun _ => hlarge, fun _ => rfl⟩
  case isFalse hfits => exact ⟨(nomatch ·), fun hlarge => absurd hlarge hfits⟩

theorem toNat_of_sum? {a b c : UInt64} (h : sum? a b = some c) :
    c.toNat = a.toNat + b.toNat := by
  unfold sum? at h
  split at h
  · cases h
  case isFalse hfits =>
    rw [add_lt_iff, Nat.not_le] at hfits
    obtain rfl := Option.some.inj h
    rw [UInt64.toNat_add, Nat.mod_eq_of_lt hfits]

/-- The size of a page, from what the system reports. A negative report tells nothing, and
the usual size is taken. No page is empty. -/
def pageSize (reported : Int64) : UInt64 :=
  if reported < 0 then 4096 else if reported = 0 then 1 else reported.toUInt64

def start (w : Window) : Except WindowError UInt64 :=
  if w.span.toNat < Register.fileBytes then .error (.spanTooSmall w.span)
  else
    match sum? w.physicalBase w.bridgeOffset with
    | none => .error (.badAddress w.physicalBase.toNat)
    | some address =>
      if address % 4 = 0 then .ok address else .error (.badAddress address.toNat)

def pageStart (page address : UInt64) : UInt64 := address - address % page

def pages? (page address span : UInt64) : Option Mapping :=
  let base := pageStart page address
  let delta := address - base
  match sum? delta span with
  | none => none
  | some length =>
    if base.toNat < fileLimit then
      some { base := base.toNat, delta := delta.toNat, length := length.toNat }
    else none

/-- The mapping for pages of the size that is reported, or what is wrong with the window.
Nothing has been opened yet. -/
def mapping (reported : Int64) (w : Window) : Except WindowError Mapping := do
  let address ← w.start
  match pages? (pageSize reported) address w.span with
  | none => .error (.badAddress address.toNat)
  | some m => .ok m

end Window

end PulseMill
