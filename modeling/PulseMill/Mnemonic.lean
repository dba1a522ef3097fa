import PulseMill.Text.Letters
import PulseMill.Text.Digits
set_option autoImplicit false

namespace PulseMill

inductive Instruction where
  | nop | cw | ccw | header | config
  deriving DecidableEq, Repr

structure InvalidCode where
  word : UInt32
  deriving DecidableEq, Repr

def InvalidCode.message (e : InvalidCode) : String :=
  s!"the value {Text.hex e.word.toNat} is not a valid instruction code"

namespace Instruction

def code : Instruction → UInt32
  | nop => 0
  | cw => 1
  | ccw => 2
  | header => 3
  | config => 4

/-- Only the low four bits of the word are looked at. -/
def ofWord (word : UInt32) : Except InvalidCode Instruction :=
  match (word &&& 0xF).toNat with
  | 0 => .ok nop
  | 1 => .ok cw
  | 2 => .ok ccw
  | 3 => .ok header
  | 4 => .ok config
  | _ => .error ⟨word⟩

@[simp] theorem ofWord_code (i : Instruction) : ofWord i.code = .ok i := by
  cases i <;> rfl

theorem code_of_ofWord {word : UInt32} {i : Instruction} (h : ofWord word = .ok i) :
    i.code = word &&& 0xF := by
  unfold ofWord at h
  split at h <;> cases h <;> rename_i e <;> exact UInt32.toNat_inj.1 (by simpa [code] using e.symm)

end Instruction

inductive Mnemonic where
  | nop | cw | ccw | dwell | header | config
  deriving DecidableEq, Repr

namespace Mnemonic

def name : Mnemonic → String
  | nop => "NOP"
  | cw => "CW"
  | ccw => "CCW"
  | dwell => "DWELL"
  | header => "HEADER"
  | config => "CONFIG"

def all : List Mnemonic := [nop, cw, ccw, dwell, header, config]

def ofSymbol? (s : String) : Option Mnemonic :=
  all.find? fun m => Text.sameName m.name s

@[simp] theorem ofSymbol?_name (m : Mnemonic) : ofSymbol? m.name = some m := by
  cases m <;> decide

theorem ofSymbol?_congr {s t : String} (h : Text.sameName s t) :
    ofSymbol? s = ofSymbol? t := by
  have h := Text.sameName_iff.1 h
  simp [ofSymbol?, Text.sameName, h]

theorem ofSymbol?_eq_some_iff {s : String} {m : Mnemonic} :
    ofSymbol? s = some m ↔ Text.sameName m.name s := by
  refine ⟨fun h => ?_, fun h => (ofSymbol?_congr h).symm.trans (ofSymbol?_name m)⟩
  have hfound := List.find?_some h
  exact hfound

/-- A dwell differs from a no-op by its pulse parameters alone, so both share one
instruction. -/
def instruction : Mnemonic → Instruction
  | nop | dwell => .nop
  | cw => .cw
  | ccw => .ccw
  | header => .header
  | config => .config

def ofInstruction (pulses : Bool) : Instruction → Mnemonic
  | .nop => if pulses then dwell else nop
  | .cw => cw
  | .ccw => ccw
  | .header => header
  | .config => config

@[simp] theorem instruction_ofInstruction (pulses : Bool) (i : Instruction) :
    (ofInstruction pulses i).instruction = i := by
  cases i <;> cases pulses <;> rfl

def isPseudo : Mnemonic → Bool
  | header | config => true
  | _ => false

end Mnemonic

end PulseMill
