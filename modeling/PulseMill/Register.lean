import PulseMill.Axis
set_option autoImplicit false

/-!
The register file of the pulse generator: sixty-four words from a base address.

| Offset | Contents |
|---|---|
| 0x00 | status |
| 0x04 | command |
| 0x08 | interface version |
| 0x10 + 0x10 * n | staging for X, Y, Z, A, B, C, U, V, W, spindle |
| 0xB0 | inputs 0 to 3 |
| 0xC0 | outputs 0 to 3 |
| 0xD0 | expansion inputs 0 to 3 |
| 0xE0 | expansion outputs 0 to 3 |
| 0xF0 | the two sentinels |
-/

namespace PulseMill

inductive HardwareAxis where
  | x | y | z | a | b | c | u | v | w | spindle
  deriving DecidableEq, Repr

namespace HardwareAxis

def all : List HardwareAxis := [x, y, z, a, b, c, u, v, w, spindle]

def name : HardwareAxis → String
  | x => "X"
  | y => "Y"
  | z => "Z"
  | a => "A"
  | b => "B"
  | c => "C"
  | u => "U"
  | v => "V"
  | w => "W"
  | spindle => "Spindle"

def index : HardwareAxis → Nat
  | x => 0
  | y => 1
  | z => 2
  | a => 3
  | b => 4
  | c => 5
  | u => 6
  | v => 7
  | w => 8
  | spindle => 9

theorem mem_all (axis : HardwareAxis) : axis ∈ all := by cases axis <;> decide

def ofAxis? : Axis → Option HardwareAxis
  | .x => some x
  | .y => some y
  | .z => some z
  | .a => some a
  | .b => some b
  | .c => some c
  | .u => some u
  | .v => some v
  | .w => some w
  | _ => none

end HardwareAxis

inductive AxisField where
  | rate | count | width | instruction
  deriving DecidableEq, Repr

namespace AxisField

def all : List AxisField := [rate, count, width, instruction]

def name : AxisField → String
  | rate => "PulseRate"
  | count => "PulseCount"
  | width => "PulseWidth"
  | instruction => "Instruction"

def index : AxisField → Nat
  | rate => 0
  | count => 1
  | width => 2
  | instruction => 3

theorem mem_all (f : AxisField) : f ∈ all := by cases f <;> decide

end AxisField

abbrev Bank := Fin 4

def Bank.all : List Bank := List.finRange 4

inductive Register where
  | status
  | command
  | version
  | staged (axis : HardwareAxis) (field : AxisField)
  | gpioInput (bank : Bank)
  | gpioOutput (bank : Bank)
  | expansionInput (bank : Bank)
  | expansionOutput (bank : Bank)
  | sentinel0
  | sentinel1
  deriving DecidableEq, Repr

namespace Register

def words : Nat := 64

def fileBytes : Nat := 0x100

def word : Register → Nat
  | status => 0
  | command => 1
  | version => 2
  | staged axis field => 4 + 4 * axis.index + field.index
  | gpioInput bank => 0x2C + bank
  | gpioOutput bank => 0x30 + bank
  | expansionInput bank => 0x34 + bank
  | expansionOutput bank => 0x38 + bank
  | sentinel0 => 0x3C
  | sentinel1 => 0x3D

def offset (r : Register) : Nat := 4 * r.word

theorem word_lt (r : Register) : r.word < words := by
  cases r with
  | staged axis field => cases axis <;> cases field <;> decide
  | gpioInput bank | gpioOutput bank | expansionInput bank | expansionOutput bank =>
    simp only [word, words]
    omega
  | _ => decide

theorem offset_add_four_le (r : Register) : r.offset + 4 ≤ fileBytes := by
  have h := r.word_lt
  simp only [words] at h
  simp only [offset, fileBytes]
  omega

/-- The staging registers in the order of the file. The self test reports one by its
place in this row. -/
def staging : List Register :=
  HardwareAxis.all.flatMap fun axis => AxisField.all.map fun field => .staged axis field

def writable : List Register :=
  command :: staging ++ Bank.all.map gpioOutput ++ Bank.all.map expansionOutput

def all : List Register :=
  status :: command :: version :: staging ++ Bank.all.map gpioInput ++ Bank.all.map gpioOutput ++
    Bank.all.map expansionInput ++ Bank.all.map expansionOutput ++ [sentinel0, sentinel1]

def atWord? (n : Nat) : Option Register := all.find? fun r => r.word = n

theorem atWord?_word (r : Register) : atWord? r.word = some r := by
  cases r with
  | staged axis field => cases axis <;> cases field <;> rfl
  | gpioInput bank | gpioOutput bank | expansionInput bank | expansionOutput bank =>
    match bank with
    | 0 | 1 | 2 | 3 => rfl
  | _ => rfl

theorem word_injective {r s : Register} (h : r.word = s.word) : r = s :=
  Option.some.inj ((atWord?_word r).symm.trans (h ▸ atWord?_word s))

def label : Register → String
  | status => "Status"
  | command => "Command"
  | version => "InterfaceVersion"
  | staged axis field => s!"Axis({axis.name}, {field.name})"
  | gpioInput bank => s!"GpioInput(Bank{bank.val})"
  | gpioOutput bank => s!"GpioOutput(Bank{bank.val})"
  | expansionInput bank => s!"ExpansionInput(Bank{bank.val})"
  | expansionOutput bank => s!"ExpansionOutput(Bank{bank.val})"
  | sentinel0 => "Sentinel0"
  | sentinel1 => "Sentinel1"

def sentinel0Value : UInt32 := 0xA5A5A5A5

def sentinel1Value : UInt32 := 0x5A5A5A5A

def interfaceVersion : UInt32 := 1

end Register

namespace Command

def reset : UInt32 := 1

def clearSticky : UInt32 := 2

def enable : UInt32 := 4

def stop : UInt32 := 8

/-- Commit the staged words of X, Y, Z and A as one block. -/
def commit : UInt32 := 16

end Command

end PulseMill
