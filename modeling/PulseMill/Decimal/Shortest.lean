set_option autoImplicit false

/-!
The shortest decimal that reads back as a given double: a point of the coarsest
decimal grid that meets the interval of reals rounding to the double, and of two
such points the nearer one.
-/

namespace PulseMill.Decimal

/-- A positive double `mantissa * 2 ^ (exponent - 1075)`. -/
structure Binary where
  mantissa : Nat
  exponent : Nat
  lowerGapHalf : Bool

/-- The reals that round to a double, each bound a multiple of the same quarter
of its unit, here cleared of denominators: the real `x / scale`. -/
structure Interval where
  low : Nat
  value : Nat
  high : Nat
  scale : Nat
  closed : Bool

def Binary.interval (b : Binary) : Interval :=
  let unit := 1 <<< b.exponent
  let quarters := 4 * b.mantissa
  { low := (if b.lowerGapHalf then quarters - 1 else quarters - 2) * unit
    value := quarters * unit
    high := (quarters + 2) * unit
    scale := 1 <<< 1077
    closed := b.mantissa % 2 = 0 }

def Interval.contains (i : Interval) (x : Nat) : Bool :=
  if i.closed then i.low ≤ x && x ≤ i.high else i.low < x && x < i.high

/-- The value's neighbour on the grid of step `step` that lies in the interval,
as a number of steps: of two the nearer, halfway the upper. -/
def Interval.gridPoint? (i : Interval) (step : Nat) : Option Nat :=
  let below := i.value / step
  let rest := i.value % step
  let isBelow := i.contains (below * step)
  let isAbove := i.contains ((below + 1) * step)
  if isBelow && (!isAbove || 2 * rest < step) then some below
  else if isAbove then some (below + 1)
  else none

def finest : Nat := 345

/-- Digits and power of ten on the coarsest grid from `10 ^ (n - finest)` down. -/
def shortest (i : Interval) : Nat → Nat × Int
  | 0 => (0, 0)
  | n + 1 =>
    let scaled := { i with
      low := i.low * 10 ^ finest, value := i.value * 10 ^ finest, high := i.high * 10 ^ finest }
    match scaled.gridPoint? (10 ^ n * i.scale) with
    | some k => (k, (n : Int) - finest)
    | none => shortest i n

def positional (digits : Nat) (power : Int) : String :=
  let ds := Nat.toDigits 10 digits
  if power ≥ 0 then String.ofList (ds ++ List.replicate power.toNat '0')
  else
    let places := (-power).toNat
    let padded := List.replicate (places + 1 - ds.length) '0' ++ ds
    let whole := padded.length - places
    String.ofList (padded.take whole ++ '.' :: padded.drop whole)

def ofBits (bits : UInt64) : String :=
  let sign := if bits >>> 63 = 1 then "-" else ""
  let field := ((bits >>> 52) &&& 0x7FF).toNat
  let fraction := (bits &&& 0xFFFFFFFFFFFFF).toNat
  if field = 0x7FF then
    if fraction = 0 then sign ++ "inf" else "NaN"
  else if field = 0 && fraction = 0 then sign ++ "0"
  else
    let b : Binary :=
      if field = 0 then ⟨fraction, 1, false⟩
      else ⟨1 <<< 52 + fraction, field, fraction = 0 && field > 1⟩
    let (digits, power) := shortest b.interval (finest + 310)
    sign ++ positional digits power

def ofFloat (x : Float) : String := ofBits x.toBits

end PulseMill.Decimal
