import PulseMill.Decimal.Shortest
set_option autoImplicit false

namespace PulseMill

structure Timing where
  baseClockHz : UInt32 := 50000000
  rateScale : UInt32 := 4
  widthScale : UInt32 := 1
  deriving DecidableEq, Repr

inductive TimingError where
  | invalidFrequency (hz : Float)
  | frequencyTooHigh (hz : Float)
  | frequencyTooLow (hz : Float)
  | invalidConfig
  deriving Repr

def TimingError.message : TimingError → String
  | invalidFrequency hz => s!"frequency {Decimal.ofFloat hz} Hz is not a positive finite number"
  | frequencyTooHigh hz =>
    s!"frequency {Decimal.ofFloat hz} Hz is faster than the pulse generator can run"
  | frequencyTooLow hz =>
    s!"frequency {Decimal.ofFloat hz} Hz is too slow for the pulse rate register"
  | invalidConfig => "the timing configuration has a zero clock or scale"

namespace Timing

def isValid (t : Timing) : Bool := t.baseClockHz ≠ 0 && t.rateScale ≠ 0 && t.widthScale ≠ 0

def validate (t : Timing) : Except TimingError Unit :=
  if t.isValid then .ok () else .error .invalidConfig

/-- Whole nanoseconds in a clock tick. A clock too fast to have one is refused. -/
def clockPeriodNs (t : Timing) : Except TimingError UInt32 := do
  t.validate
  let period := 1000000000 / t.baseClockHz
  if period = 0 then .error .invalidConfig else .ok period

def rateOfHz (t : Timing) (hz : Float) : Except TimingError UInt32 := do
  t.validate
  if !hz.isFinite || hz ≤ 0 then throw (.invalidFrequency hz)
  let ticks := t.baseClockHz.toFloat / hz
  if ticks > 4294967295 then throw (.frequencyTooLow hz)
  let rate := ticks.toUInt32 / t.rateScale
  if rate = 0 then throw (.frequencyTooHigh hz)
  return rate

def hzOfRate (t : Timing) (rate : UInt32) : Except TimingError Float := do
  t.validate
  let ticks := rate.toUInt64 * t.rateScale.toUInt64
  if ticks = 0 then throw (.frequencyTooHigh (1 / 0))
  return t.baseClockHz.toFloat / ticks.toFloat

def widthOfNs (t : Timing) (ns : UInt32) : Except TimingError UInt32 := do
  let period ← t.clockPeriodNs
  return ns / period / t.widthScale

def maxNs : Nat := UInt64.size - 1

def nsOfWidth (t : Timing) (width : UInt32) : Except TimingError UInt64 := do
  let period ← t.clockPeriodNs
  return UInt64.ofNat (min (width.toNat * t.widthScale.toNat * period.toNat) maxNs)

end Timing

end PulseMill
