import PulseMill.Program
import PulseMill.Assembly.Assembler
set_option autoImplicit false

/-!
Program images: the bytes of an assembled program. Numbers take seven bits a byte,
low ones first; texts and the row of blocks have their length in front, and what
may be missing a byte that tells.
-/

namespace PulseMill.Image

inductive Malformed where
  | endOfInput
  | badNumber
  | badOption
  | badText
  | badAxis
  deriving DecidableEq, Repr

inductive ImageError where
  | codec (e : Malformed)
  | badMagic
  | unsupportedVersion (version : UInt32)
  | blockArray (e : OutOfMemory)
  deriving DecidableEq, Repr

def Malformed.message : Malformed → String
  | endOfInput => "Hit the end of buffer, expected more data"
  | badNumber => "Found a varint that didn't terminate. Is the usize too big for this platform?"
  | badOption => "Found an Option discriminant that wasn't 0 or 1"
  | badText => "Tried to parse invalid utf-8"
  | badAxis => "Serde Deserialization Error"

def ImageError.message : ImageError → String
  | codec e => s!"image encoding failed: {e.message}"
  | badMagic => "not a program image"
  | unsupportedVersion n => s!"image version {n} is not supported"
  | blockArray e => e.message

abbrev Bytes := List UInt8

abbrev Reader := StateT Bytes (Except Malformed)

def writeNat (n : Nat) : Bytes :=
  if n < 128 then [UInt8.ofNat n] else UInt8.ofNat (n % 128 + 128) :: writeNat (n / 128)

/-- At most `more + 1` bytes, of which the last one of all is at most `last`. Bytes
that add nothing to the number are accepted. -/
def readNat (last : Nat) (more : Nat) : Reader Nat
  | [] => .error .endOfInput
  | b :: rest =>
    match more with
    | 0 => if b.toNat ≤ last then .ok (b.toNat, rest) else .error .badNumber
    | more + 1 =>
      if b.toNat < 128 then .ok (b.toNat, rest)
      else do
        let (high, rest) ← readNat last more rest
        return (b.toNat - 128 + 128 * high, rest)

theorem writeNat_of_lt {n : Nat} (h : n < 128) : writeNat n = [UInt8.ofNat n] := by
  rw [writeNat, if_pos h]

theorem writeNat_of_le {n : Nat} (h : 128 ≤ n) :
    writeNat n = UInt8.ofNat (n % 128 + 128) :: writeNat (n / 128) := by
  rw [writeNat, if_neg (by omega)]

theorem readNat_writeNat {last more n : Nat} (hl : last < 128)
    (hn : n < (last + 1) * Nat.pow 128 more) (tail : Bytes) :
    readNat last more (writeNat n ++ tail) = .ok (n, tail) := by
  induction more generalizing n with
  | zero =>
    have hn : n < last + 1 := by simpa using hn
    have h : n < 128 := by omega
    have hb : n % 256 = n := by omega
    simp [writeNat_of_lt h, readNat, hb]
    omega
  | succ more ih =>
    by_cases h : n < 128
    · have hb : n % 256 = n := by omega
      simp [writeNat_of_lt h, readNat, hb, h]
    · have hn : n / 128 < (last + 1) * Nat.pow 128 more := by
        rw [Nat.div_lt_iff_lt_mul (by decide), Nat.mul_assoc]
        exact hn
      have hb : (n % 128 + 128) % 256 = n % 128 + 128 := by omega
      rw [writeNat_of_le (by omega)]
      have hi : ¬ n % 128 + 128 < 128 := by omega
      have hv : n % 128 + 128 * (n / 128) = n := by omega
      simp [readNat, hb, hi, hv, ih hn, bind, Except.bind, pure, Except.pure]

def readWord : Reader UInt32 := UInt32.ofNat <$> readNat 0x0F 4

def writeWord (w : UInt32) : Bytes := writeNat w.toNat

def readLength : Reader Nat := readNat 0x01 9

def writeText (s : String) : Bytes :=
  let bytes := s.toUTF8.data.toList
  writeNat bytes.length ++ bytes

def take (n : Nat) : Reader Bytes := fun bytes =>
  if n ≤ bytes.length then .ok (bytes.take n, bytes.drop n) else .error .endOfInput

def readText : Reader String := do
  let bytes ← take (← readLength)
  match String.fromUTF8? bytes.toByteArray with
  | some s => return s
  | none => throw .badText

def writeOption {α : Type} (write : α → Bytes) : Option α → Bytes
  | none => [0]
  | some a => 1 :: write a

def readOption {α : Type} (read : Reader α) : Reader (Option α)
  | [] => .error .endOfInput
  | b :: rest =>
    if b = 0 then .ok (none, rest)
    else if b = 1 then (some <$> read) rest
    else .error .badOption

def writeAxis (axis : Axis) : Bytes := writeNat axis.index

def readAxis : Reader Axis := do
  match Axis.ofIndex? (← readWord).toNat with
  | some axis => return axis
  | none => throw .badAxis

def writeOpcode (op : Opcode) : Bytes :=
  writeAxis op.axis ++ writeOption writeText op.mnemonic ++ writeOption writeText op.arg0 ++
    writeOption writeText op.arg1 ++ writeOption writeText op.arg2

def readOpcode : Reader Opcode := do
  let axis ← readAxis
  let mnemonic ← readOption readText
  let arg0 ← readOption readText
  let arg1 ← readOption readText
  let arg2 ← readOption readText
  return { axis, mnemonic, arg0, arg1, arg2 }

def writeAxisWords (w : AxisWords) : Bytes :=
  writeWord w.instruction ++ writeWord w.rate ++ writeWord w.count ++ writeWord w.width

def readAxisWords : Reader AxisWords := do
  let instruction ← readWord
  let rate ← readWord
  let count ← readWord
  let width ← readWord
  return { instruction, rate, count, width }

def writeBlock (b : Block) : Bytes :=
  writeAxisWords b.x ++ writeAxisWords b.y ++ writeAxisWords b.z ++ writeAxisWords b.a

def readBlock : Reader Block := do
  let x ← readAxisWords
  let y ← readAxisWords
  let z ← readAxisWords
  let a ← readAxisWords
  return { x, y, z, a }

/-- So many blocks. Each takes some bytes, so a count that is too great ends the
input and not the memory. -/
def readBlocks : Nat → Reader (List Block)
  | 0 => return []
  | n + 1 => do
    let b ← readBlock
    let bs ← readBlocks n
    return b :: bs

/-- `MCNC`, low byte first. -/
def magic : UInt32 := 0x434E434D

def version : UInt32 := 1

structure Contents where
  magic : UInt32
  version : UInt32
  info : Info
  blocks : List Block
  deriving DecidableEq, Repr

def writeContents (c : Contents) : Bytes :=
  writeWord c.magic ++ writeWord c.version ++ writeOption writeOpcode c.info.header ++
    writeOption writeOpcode c.info.config ++ writeNat c.blocks.length ++ c.blocks.flatMap writeBlock

def readContents : Reader Contents := do
  let magic ← readWord
  let version ← readWord
  let header ← readOption readOpcode
  let config ← readOption readOpcode
  let blocks ← readBlocks (← readLength)
  return { magic, version, info := { header, config }, blocks }

def encode (p : Program) : Bytes :=
  writeContents { magic, version, info := p.info, blocks := p.blocks.toList }

/-- The bytes are read to the end of the program before its magic and version are
looked at. What follows the program is ignored. -/
def decode (reserve : Reserve) (bytes : Bytes) : Except ImageError Program := do
  let (c, _) ← (readContents bytes).mapError .codec
  if c.magic ≠ magic then throw .badMagic
  if c.version ≠ version then throw (.unsupportedVersion c.version)
  let blocks ← (BlockArray.empty.extend reserve c.blocks).mapError .blockArray
  return { info := c.info, blocks }

end PulseMill.Image
