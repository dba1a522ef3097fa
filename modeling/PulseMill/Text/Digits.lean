set_option autoImplicit false

namespace PulseMill.Text

def hexDigits (width n : Nat) : String :=
  let ds := Nat.toDigits 16 n
  String.ofList (List.replicate (width - ds.length) '0' ++ ds)

def hex (n : Nat) : String := "0x" ++ hexDigits 1 n

def hexWord (w : UInt32) : String := "0x" ++ hexDigits 8 w.toNat

end PulseMill.Text
