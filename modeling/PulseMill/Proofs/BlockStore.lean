import PulseMill.BlockArray
set_option autoImplicit false

namespace PulseMill

/-- How often an array of the usual size has grown before it holds `n` entries. -/
def growthsFor (n : Nat) : Nat := (n - 1) / 16

/-- Memory can be had for the first size and for each growth up to `n` entries. -/
def Reserve.Covers (reserve : Reserve) (n : Nat) : Prop :=
  ∀ k ≤ growthsFor n, 16 * (k + 1) ≤ maxIndex ∧ reserve (16 * (k + 1)) = true

namespace BlockArray

variable {α : Type} {reserve : Reserve}

def filled (l : List α) : BlockArray α :=
  { entries := l.toArray
    capacity := 16 * (growthsFor l.length + 1)
    increment := 16
    cursor := 0
    growths := growthsFor l.length }

theorem filled_nil : filled ([] : List α) = empty := by
  simp [filled, empty, growthsFor]

theorem covers_zero : reserve.Covers 0 ↔ reserve 16 = true := by
  constructor
  · intro h
    exact (h 0 (Nat.zero_le _)).2
  · intro h k hk
    obtain rfl : k = 0 := Nat.le_zero.1 hk
    exact ⟨by decide, h⟩

theorem covers_mono {m n : Nat} (h : reserve.Covers n) (hmn : m ≤ n) : reserve.Covers m := by
  intro k hk
  have hle : growthsFor m ≤ growthsFor n := Nat.div_le_div_right (by omega)
  exact h k (Nat.le_trans hk hle)

theorem le_maxIndex_of_covers {n : Nat} (h : reserve.Covers n) : n ≤ maxIndex := by
  have hlast := (h (growthsFor n) (Nat.le_refl _)).1
  unfold growthsFor at hlast
  omega

theorem push_filled {l : List α} {entry : α} {a : BlockArray α} (h : reserve.Covers l.length) :
    (filled l).push reserve entry = .ok a ↔
      reserve.Covers (l.length + 1) ∧ filled (l ++ [entry]) = a := by
  have hlength : (filled l).length = l.length := by simp [filled, BlockArray.length]
  by_cases hroom : l.length < 16 * (growthsFor l.length + 1)
  · -- As many growths as before are enough.
    have hsame : growthsFor (l.length + 1) = growthsFor l.length := by
      unfold growthsFor at hroom ⊢
      omega
    have hcovers : reserve.Covers (l.length + 1) := by
      unfold Reserve.Covers
      rw [hsame]
      exact h
    rw [push_of_lt (by rw [hlength]; exact hroom)]
    simp only [Except.ok.injEq, hcovers, true_and]
    simp [filled, hsame]
  · have hnext : growthsFor (l.length + 1) = growthsFor l.length + 1 := by
      unfold growthsFor at hroom ⊢
      omega
    have hcovers : reserve.Covers (l.length + 1) ↔
        16 * (growthsFor l.length + 1) + 16 ≤ maxIndex ∧
          reserve (16 * (growthsFor l.length + 1) + 16) = true := by
      constructor
      · intro hmore
        exact hmore (growthsFor l.length + 1) (Nat.le_of_eq hnext.symm)
      · intro hlast k hk
        rw [hnext] at hk
        rcases Nat.le_succ_iff.1 hk with hk | rfl
        · exact h k hk
        · exact hlast
    have hfull : (filled l).length ≥ (filled l).capacity := by
      rw [hlength]
      exact Nat.le_of_not_lt hroom
    have hcapacity : (filled l).capacity + (filled l).increment =
        16 * (growthsFor l.length + 1) + 16 := rfl
    simp only [push, if_pos hfull, grow, hcapacity]
    by_cases hmax : 16 * (growthsFor l.length + 1) + 16 > maxIndex
    · rw [if_pos hmax]
      refine iff_of_false (by simp [bind, Except.bind]) fun hmore => ?_
      have hle := (hcovers.1 hmore.1).1
      omega
    · rw [if_neg hmax]
      cases hreserve : reserve (16 * (growthsFor l.length + 1) + 16) with
      | false =>
        refine iff_of_false (by simp [bind, Except.bind]) fun hmore => ?_
        rw [hreserve] at hcovers
        exact absurd (hcovers.1 hmore.1).2 (by simp)
      | true =>
        have hmore : reserve.Covers (l.length + 1) := hcovers.2 ⟨Nat.le_of_not_lt hmax, hreserve⟩
        simp only [hmore, true_and, if_true, bind, Except.bind, pure, Except.pure, Except.ok.injEq]
        simp [filled, hnext, Nat.mul_add]

/-- Entries are pushed one by one, and each of the growths on the way needs its memory. -/
theorem extend_filled {l more : List α} {a : BlockArray α} (h : reserve.Covers l.length) :
    (filled l).extend reserve more = .ok a ↔
      reserve.Covers (l.length + more.length) ∧ filled (l ++ more) = a := by
  induction more generalizing l with
  | nil => simp [extend, h]
  | cons entry more ih =>
    have hlength : l.length + (entry :: more).length = (l ++ [entry]).length + more.length := by
      simp
      omega
    have hlist : l ++ entry :: more = l ++ [entry] ++ more := by simp
    have hcons : (filled l).extend reserve (entry :: more) =
        (filled l).push reserve entry >>= fun b => b.extend reserve more := rfl
    rw [hcons, hlength, hlist]
    constructor
    · intro hextend
      cases hpush : (filled l).push reserve entry with
      | error e => simp [hpush, bind, Except.bind] at hextend
      | ok b =>
        obtain ⟨hcovers, rfl⟩ := (push_filled h).1 hpush
        rw [hpush] at hextend
        exact (ih (by simpa using hcovers)).1 hextend
    · intro hgiven
      obtain ⟨hcovers, ha⟩ := hgiven
      have hone : reserve.Covers (l ++ [entry]).length := covers_mono hcovers (Nat.le_add_right ..)
      have hpush : (filled l).push reserve entry = .ok (filled (l ++ [entry])) :=
        (push_filled h).2 ⟨by simpa using hone, rfl⟩
      rw [hpush]
      exact (ih hone).2 ⟨hcovers, ha⟩

end BlockArray

end PulseMill
