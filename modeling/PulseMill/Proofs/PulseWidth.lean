import PulseMill.Timing
import Mathlib.Logic.Basic
set_option autoImplicit false

namespace PulseMill.Timing

variable {t : Timing}

/-- Nothing is zero, and a clock tick lasts at least a nanosecond. -/
def Usable (t : Timing) : Prop :=
  t.baseClockHz ≠ 0 ∧ t.rateScale ≠ 0 ∧ t.widthScale ≠ 0 ∧ t.baseClockHz ≤ 1000000000

def period (t : Timing) : UInt32 := 1000000000 / t.baseClockHz

def unitNs (t : Timing) : Nat := t.widthScale.toNat * t.period.toNat

theorem period_eq_zero_iff (h : t.baseClockHz ≠ 0) : t.period = 0 ↔ 1000000000 < t.baseClockHz := by
  have hclock : t.baseClockHz.toNat ≠ 0 := fun hzero => h (UInt32.toNat_inj.1 hzero)
  rw [← UInt32.toNat_inj, period, UInt32.toNat_div, UInt32.toNat_zero, Nat.div_eq_zero_iff,
    or_iff_right hclock, UInt32.lt_iff_toNat_lt]

theorem isValid_iff : t.isValid ↔ t.baseClockHz ≠ 0 ∧ t.rateScale ≠ 0 ∧ t.widthScale ≠ 0 := by
  simp [isValid, and_assoc]

theorem clockPeriodNs_of_usable (h : t.Usable) : t.clockPeriodNs = .ok t.period := by
  obtain ⟨hclock, hrate, hwidth, hslow⟩ := h
  have hvalid : t.isValid := isValid_iff.2 ⟨hclock, hrate, hwidth⟩
  have hperiod : ¬ 1000000000 / t.baseClockHz = 0 :=
    (period_eq_zero_iff hclock).not.2 (UInt32.not_lt.2 hslow)
  simp only [clockPeriodNs, validate, hvalid, if_true, bind, Except.bind, if_neg hperiod, period]

theorem clockPeriodNs_of_not_usable (h : ¬ t.Usable) :
    t.clockPeriodNs = .error .invalidConfig := by
  by_cases hvalid : t.isValid
  · obtain ⟨hclock, hrate, hwidth⟩ := isValid_iff.1 hvalid
    have hfast : 1000000000 < t.baseClockHz := by
      rw [← UInt32.not_le]
      exact fun hslow => h ⟨hclock, hrate, hwidth, hslow⟩
    have hperiod : 1000000000 / t.baseClockHz = 0 := (period_eq_zero_iff hclock).2 hfast
    simp only [clockPeriodNs, validate, hvalid, if_true, bind, Except.bind, if_pos hperiod]
  · simp only [clockPeriodNs, validate, if_neg hvalid, bind, Except.bind]

theorem Usable.period_ne_zero (h : t.Usable) : t.period ≠ 0 :=
  (period_eq_zero_iff h.1).not.2 (UInt32.not_lt.2 h.2.2.2)

theorem Usable.unitNs_pos (h : t.Usable) : 0 < t.unitNs := by
  have hscale : t.widthScale.toNat ≠ 0 := fun hzero => h.2.2.1 (UInt32.toNat_inj.1 hzero)
  have hperiod : t.period.toNat ≠ 0 := fun hzero => h.period_ne_zero (UInt32.toNat_inj.1 hzero)
  exact Nat.mul_pos (Nat.pos_of_ne_zero hscale) (Nat.pos_of_ne_zero hperiod)

def widthFor (t : Timing) (ns : UInt32) : UInt32 := ns / t.period / t.widthScale

def timeOf (t : Timing) (width : UInt32) : UInt64 :=
  .ofNat (min (width.toNat * t.widthScale.toNat * t.period.toNat) maxNs)

/-- What is computed from the clock period alone fails only where there is none. -/
theorem convert_eq_error_iff {β : Type} (convert : UInt32 → β) :
    (do return convert (← t.clockPeriodNs)) = Except.error .invalidConfig ↔ ¬ t.Usable := by
  constructor
  · intro herror h
    rw [clockPeriodNs_of_usable h] at herror
    cases herror
  · intro h
    rw [clockPeriodNs_of_not_usable h]
    rfl

theorem widthOfNs_of_usable (h : t.Usable) (ns : UInt32) :
    t.widthOfNs ns = .ok (t.widthFor ns) := by
  rw [widthOfNs, clockPeriodNs_of_usable h]
  rfl

theorem nsOfWidth_of_usable (h : t.Usable) (width : UInt32) :
    t.nsOfWidth width = .ok (t.timeOf width) := by
  rw [nsOfWidth, clockPeriodNs_of_usable h]
  rfl

theorem toNat_widthFor (t : Timing) (ns : UInt32) :
    (t.widthFor ns).toNat = ns.toNat / t.unitNs := by
  rw [widthFor, UInt32.toNat_div, UInt32.toNat_div, Nat.div_div_eq_div_mul, Nat.mul_comm, unitNs]

theorem toNat_timeOf (t : Timing) (width : UInt32) :
    (t.timeOf width).toNat = min (width.toNat * t.unitNs) maxNs := by
  have hless : min (width.toNat * t.widthScale.toNat * t.period.toNat) maxNs < UInt64.size :=
    Nat.lt_of_le_of_lt (Nat.min_le_right ..) (by decide)
  rw [timeOf, UInt64.toNat_ofNat_of_lt' hless, unitNs, Nat.mul_assoc]

theorem toNat_lt_maxNs (ns : UInt32) : ns.toNat < maxNs :=
  Nat.lt_trans ns.toNat_lt (by decide)

/-- A time that is cut off is longer than all that are asked for, so it makes no difference. -/
theorem timeOf_le_iff (width ns : UInt32) :
    t.timeOf width ≤ ns.toUInt64 ↔ width.toNat * t.unitNs ≤ ns.toNat := by
  have hns := toNat_lt_maxNs ns
  rw [UInt64.le_iff_toNat_le, toNat_timeOf, UInt32.toNat_toUInt64]
  omega

theorem le_widthFor_iff (h : t.Usable) (width ns : UInt32) :
    width ≤ t.widthFor ns ↔ t.timeOf width ≤ ns.toUInt64 := by
  rw [timeOf_le_iff, UInt32.le_iff_toNat_le, toNat_widthFor,
    Nat.le_div_iff_mul_le h.unitNs_pos]

theorem widthFor_mono (h : t.Usable) {ns more : UInt32} (hle : ns ≤ more) :
    t.widthFor ns ≤ t.widthFor more := by
  have hback : t.timeOf (t.widthFor ns) ≤ ns.toUInt64 :=
    (le_widthFor_iff h _ ns).1 (UInt32.le_refl _)
  refine (le_widthFor_iff h _ more).2 (UInt64.le_trans hback ?_)
  rw [UInt64.le_iff_toNat_le, UInt32.toNat_toUInt64, UInt32.toNat_toUInt64]
  exact UInt32.le_iff_toNat_le.1 hle

theorem lt_timeOf_widthFor_add (h : t.Usable) (ns : UInt32) :
    ns.toNat < (t.timeOf (t.widthFor ns)).toNat + (t.timeOf 1).toNat := by
  have hns := toNat_lt_maxNs ns
  have hnext : ns.toNat < t.unitNs * (ns.toNat / t.unitNs + 1) :=
    Nat.lt_mul_div_succ ns.toNat h.unitNs_pos
  rw [Nat.mul_add, Nat.mul_comm, Nat.mul_one] at hnext
  rw [toNat_timeOf, toNat_timeOf, toNat_widthFor, UInt32.toNat_one, Nat.one_mul]
  omega

theorem widthFor_timeOf (h : t.Usable) {width : UInt32}
    (hfits : (t.timeOf width).toNat < UInt32.size) :
    t.widthFor (t.timeOf width).toUInt32 = width := by
  have hexact : (t.timeOf width).toNat = width.toNat * t.unitNs := by
    have hlarge : UInt32.size ≤ maxNs := by decide
    rw [toNat_timeOf] at hfits ⊢
    omega
  rw [← UInt32.toNat_inj, toNat_widthFor, UInt64.toNat_toUInt32, Nat.mod_eq_of_lt hfits, hexact,
    Nat.mul_div_cancel _ h.unitNs_pos]

/-- The conversions refuse the same clocks and scales, whatever is to be converted, and no others.
Otherwise nothing that is divided by is zero, and a width is at most the one for a time just when
its pulse is no longer than this time. So longer times have wider pulses, a pulse is never longer
than what was asked for, a unit more would be, and a width is the one for its own time. -/
theorem widthOfNs_adjoint (t : Timing) :
    let refused := t.baseClockHz = 0 ∨ t.rateScale = 0 ∨ t.widthScale = 0 ∨
      1000000000 < t.baseClockHz
    (∀ ns, t.widthOfNs ns = .error .invalidConfig ↔ refused) ∧
    (∀ width, t.nsOfWidth width = .error .invalidConfig ↔ refused) ∧
    (¬ refused →
      ∃ (period : UInt32) (width : UInt32 → UInt32) (time : UInt32 → UInt64),
        t.clockPeriodNs = .ok period ∧
        t.baseClockHz ≠ 0 ∧ period ≠ 0 ∧ t.widthScale ≠ 0 ∧
        (∀ ns, t.widthOfNs ns = .ok (width ns)) ∧
        (∀ v, t.nsOfWidth v = .ok (time v)) ∧
        (∀ v, (time v).toNat =
          min (v.toNat * t.widthScale.toNat * period.toNat) (UInt64.size - 1)) ∧
        (∀ v ns, v ≤ width ns ↔ time v ≤ ns.toUInt64) ∧
        (∀ ns more, ns ≤ more → width ns ≤ width more) ∧
        (∀ ns, time (width ns) ≤ ns.toUInt64 ∧
          ns.toNat < (time (width ns)).toNat + (time 1).toNat) ∧
        ∀ v, (time v).toNat < UInt32.size → width (time v).toUInt32 = v) := by
  intro refused
  have hrefused : refused ↔ ¬ t.Usable := by
    simp only [refused, Usable, not_and_or, not_not, UInt32.not_le]
  rw [hrefused]
  refine ⟨fun ns => convert_eq_error_iff fun _ => _, fun width => convert_eq_error_iff fun _ => _,
    fun hnot => ?_⟩
  have h : t.Usable := not_not.1 hnot
  refine ⟨t.period, t.widthFor, t.timeOf, clockPeriodNs_of_usable h, h.1, h.period_ne_zero,
    h.2.2.1, widthOfNs_of_usable h, nsOfWidth_of_usable h, fun v => ?_, le_widthFor_iff h,
    fun ns more => widthFor_mono h, fun ns => ⟨?_, lt_timeOf_widthFor_add h ns⟩,
    fun v => widthFor_timeOf h⟩
  · rw [toNat_timeOf, unitNs, Nat.mul_assoc]
    rfl
  · exact (le_widthFor_iff h _ ns).1 (UInt32.le_refl _)

/-- A tick of three nanoseconds and a third counts as three. With the greatest scale, a single unit
is longer than any time that can be asked for, and the longest time told is cut off. -/
theorem widthOfNs_adjoint_of_truncated :
    let t : Timing := { baseClockHz := 300000000, widthScale := 0xFFFFFFFF }
    t.clockPeriodNs = .ok 3 ∧ t.widthOfNs 0xFFFFFFFF = .ok 0 ∧
      t.nsOfWidth 0xFFFFFFFF = .ok 0xFFFFFFFFFFFFFFFF := by
  intro t
  obtain ⟨period, width, time, hperiod, -, -, -, hwidth, htime, hlong, hadjoint, -⟩ :=
    (widthOfNs_adjoint t).2.2 (by decide)
  have husable : t.Usable := ⟨by decide, by decide, by decide, by decide⟩
  have hthree : t.period = 3 := by decide
  rw [clockPeriodNs_of_usable husable, hthree] at hperiod
  obtain rfl : 3 = period := Except.ok.inj hperiod
  refine ⟨(clockPeriodNs_of_usable husable).trans (congrArg _ hthree), ?_, ?_⟩
  · have hunit : ¬ time 1 ≤ (0xFFFFFFFF : UInt32).toUInt64 := by
      rw [UInt64.le_iff_toNat_le, hlong]
      decide
    have hnone : ¬ 1 ≤ width 0xFFFFFFFF := (hadjoint 1 _).not.2 hunit
    rw [hwidth, UInt32.lt_one_iff.1 (UInt32.not_le.1 hnone)]
  · have hcut : time 0xFFFFFFFF = 0xFFFFFFFFFFFFFFFF :=
      UInt64.toNat_inj.1 ((hlong 0xFFFFFFFF).trans (by decide))
    rw [htime, hcut]

end PulseMill.Timing
