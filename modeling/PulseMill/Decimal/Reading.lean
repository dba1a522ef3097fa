import PulseMill.Text.Letters
set_option autoImplicit false

namespace PulseMill.Decimal

def natOfDigits (ds : List Char) : Nat := Nat.ofDigitChars 10 ds 0

structure Unsigned where
  digits : Nat
  power : Int
  deriving DecidableEq

def readPower? : List Char → Option Int
  | [] => some 0
  | e :: cs =>
    if e.toLower ≠ 'e' then none
    else
      let (negative, ds) := match cs with
        | '-' :: ds => (true, ds)
        | '+' :: ds => (false, ds)
        | ds => (false, ds)
      if ds.isEmpty || !ds.all Char.isDigit then none
      else some (if negative then -(natOfDigits ds : Int) else natOfDigits ds)

def readUnsigned? (cs : List Char) : Option Unsigned := do
  let whole := cs.takeWhile Char.isDigit
  let rest := cs.dropWhile Char.isDigit
  let (places, rest) := match rest with
    | '.' :: rest => (rest.takeWhile Char.isDigit, rest.dropWhile Char.isDigit)
    | rest => ([], rest)
  if whole.isEmpty && places.isEmpty then none
  else
    let power ← readPower? rest
    some ⟨natOfDigits (whole ++ places), power - places.length⟩

/-- The nearest double. Values past its range are cut off before the exact
quotient is formed, so a huge exponent costs nothing. -/
def Unsigned.toFloat (u : Unsigned) : Float :=
  let magnitude := u.power + (Nat.toDigits 10 u.digits).length
  if u.digits = 0 || magnitude < -330 then 0
  else if magnitude > 310 then 1 / 0
  else Float.ofScientific u.digits (u.power < 0) u.power.natAbs

def readMagnitude? (cs : List Char) : Option Float :=
  match String.ofList (cs.map Char.toLower) with
  | "inf" | "infinity" => some (1 / 0)
  | "nan" => some (0 / 0)
  | _ => (readUnsigned? cs).map Unsigned.toFloat

def readFloat? (s : String) : Option Float :=
  match s.toList with
  | '-' :: cs => (readMagnitude? cs).map (-·)
  | '+' :: cs => readMagnitude? cs
  | cs => readMagnitude? cs

end PulseMill.Decimal
