import PulseMill.Window
set_option autoImplicit false

namespace PulseMill.Device

/-- Past its end a device holds zeros. -/
def byte (bytes : ByteArray) (i : Nat) : UInt8 := bytes.data[i]?.getD 0

def putByte (bytes : ByteArray) (i : Nat) (b : UInt8) : ByteArray :=
  if h : i < bytes.size then bytes.set i b h else bytes

def word (bytes : ByteArray) (i : Nat) : UInt32 :=
  (byte bytes i).toUInt32 ||| (byte bytes (i + 1)).toUInt32 <<< 8 |||
    (byte bytes (i + 2)).toUInt32 <<< 16 ||| (byte bytes (i + 3)).toUInt32 <<< 24

def putWord (bytes : ByteArray) (i : Nat) (w : UInt32) : ByteArray :=
  let bytes := putByte bytes i w.toUInt8
  let bytes := putByte bytes (i + 1) (w >>> 8).toUInt8
  let bytes := putByte bytes (i + 2) (w >>> 16).toUInt8
  putByte bytes (i + 3) (w >>> 24).toUInt8

def read (m : Mapping) (r : Register) (bytes : ByteArray) : UInt32 :=
  word bytes (m.base + m.place r)

def write (m : Mapping) (r : Register) (w : UInt32) (bytes : ByteArray) : ByteArray :=
  putWord bytes (m.base + m.place r) w

theorem byte_putByte_of_ne {bytes : ByteArray} {i j : Nat} {b : UInt8} (h : j ≠ i) :
    byte (putByte bytes i b) j = byte bytes j := by
  unfold putByte
  split
  · cases bytes
    simp only [byte, ByteArray.set]
    rw [Array.getElem?_set_ne _ (Ne.symm h)]
  · rfl

end PulseMill.Device
