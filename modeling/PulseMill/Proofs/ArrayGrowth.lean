import PulseMill.Proofs.ArrayCalls
import Mathlib.Order.Bounds.Basic
set_option autoImplicit false

namespace PulseMill.BlockArray

variable {α : Type} {a b : BlockArray α} {initial step most : Nat}

def peak : BlockArray α → List (ArrayCall α) → Nat
  | a, [] => a.length
  | a, call :: calls => max a.length ((a.serve call).2.peak calls)

theorem length_le_peak (a : BlockArray α) (calls : List (ArrayCall α)) :
    a.length ≤ a.peak calls := by
  cases calls with
  | nil => exact Nat.le_refl _
  | cons call calls => exact Nat.le_max_left ..

theorem isGreatest_peak (a : BlockArray α) (calls : List (ArrayCall α)) :
    IsGreatest {n | ∃ k, (a.run (calls.take k)).length = n} (a.peak calls) := by
  induction calls generalizing a with
  | nil =>
    refine ⟨⟨0, rfl⟩, ?_⟩
    rintro n ⟨k, rfl⟩
    rw [List.take_nil]
    exact Nat.le_refl _
  | cons call calls ih =>
    obtain ⟨⟨last, hlast⟩, hmost⟩ := ih (a.serve call).2
    constructor
    · -- It is the length at the start, or one that comes later.
      rcases Nat.le_total a.length ((a.serve call).2.peak calls) with hle | hle
      · exact ⟨last + 1, by rw [peak, Nat.max_eq_right hle, List.take_succ_cons, run_cons, hlast]⟩
      · exact ⟨0, by rw [peak, Nat.max_eq_left hle, List.take_zero, run_nil]⟩
    · rintro n ⟨k, rfl⟩
      cases k with
      | zero => exact Nat.le_max_left ..
      | succ k => exact Nat.le_trans (hmost ⟨k, rfl⟩) (Nat.le_max_right ..)

/-- An array that began with room for so many entries, grows by so many, and has never held more
than the given number. -/
structure Grown (initial step most : Nat) (a : BlockArray α) : Prop where
  increment : a.increment = step
  capacity : a.capacity = initial + a.growths * step
  bounded : a.capacity ≤ maxIndex
  length_le : a.length ≤ most
  least : IsLeast {g | most ≤ initial + g * step} a.growths

namespace Grown

theorem most_le (h : a.Grown initial step most) : most ≤ a.capacity :=
  h.capacity ▸ h.least.1

theorem room (h : a.Grown initial step most) : a.length ≤ a.capacity :=
  Nat.le_trans h.length_le h.most_le

theorem growths_le (h : a.Grown initial step most) (hstep : 0 < step) : a.growths ≤ maxIndex := by
  have hmul : a.growths ≤ a.growths * step := Nat.le_mul_of_pos_right _ hstep
  have hcapacity := h.capacity
  have hbounded := h.bounded
  omega

theorem of_same_room (h : a.Grown initial step most) (hincrement : b.increment = a.increment)
    (hcapacity : b.capacity = a.capacity) (hgrowths : b.growths = a.growths)
    (hlength : b.length ≤ a.capacity) : b.Grown initial step (max most b.length) where
  increment := hincrement.trans h.increment
  capacity := by rw [hcapacity, hgrowths, h.capacity]
  bounded := hcapacity ▸ h.bounded
  length_le := Nat.le_max_right ..
  least := by
    rw [hgrowths]
    refine ⟨Nat.max_le.2 ⟨h.least.1, h.capacity ▸ hlength⟩, fun g hg => h.least.2 ?_⟩
    exact Nat.le_trans (Nat.le_max_left ..) hg

theorem of_growth (h : a.Grown initial step most) (hstep : 0 < step)
    (hmax : a.capacity + step ≤ maxIndex) (hincrement : b.increment = a.increment)
    (hcapacity : b.capacity = a.capacity + step) (hgrowths : b.growths = a.growths + 1)
    (hlength : b.length = a.capacity + 1) : b.Grown initial step (max most b.length) where
  increment := hincrement.trans h.increment
  capacity := by rw [hcapacity, hgrowths, Nat.succ_mul, h.capacity, Nat.add_assoc]
  bounded := hcapacity ▸ hmax
  length_le := Nat.le_max_right ..
  least := by
    have hmost := h.most_le
    have hroom := h.capacity
    rw [hgrowths, hlength, Nat.max_eq_right (by omega)]
    constructor
    · change a.capacity + 1 ≤ initial + (a.growths + 1) * step
      rw [Nat.succ_mul]
      omega
    · intro g hg
      by_contra hless
      have hmul : g * step ≤ a.growths * step := Nat.mul_le_mul_right step (by omega)
      have hmore : a.capacity + 1 ≤ initial + g * step := hg
      omega

theorem push (h : a.Grown initial step most) (hstep : 0 < step) (reserve : Reserve) (entry : α) :
    (a.serve (.push reserve entry)).2.Grown initial step
      (max most (a.serve (.push reserve entry)).2.length) := by
  obtain rfl := h.increment
  cases hpush : a.push reserve entry with
  | error e =>
    rw [serve_push_error hpush]
    exact h.of_same_room rfl rfl rfl h.room
  | ok b =>
    have hlength : b.length = a.length + 1 := by
      rw [length, (push_stores hpush).1, Array.size_push]
      rfl
    rw [serve_push_ok hpush]
    rw [push_eq] at hpush
    split at hpush
    case isTrue hless =>
      cases hpush
      exact h.of_same_room rfl rfl rfl (hlength ▸ hless)
    case isFalse hfull =>
      have hexact : a.length = a.capacity := Nat.le_antisymm h.room (Nat.not_lt.1 hfull)
      split at hpush
      case isTrue => cases hpush
      case isFalse hmax =>
        split at hpush
        case isTrue =>
          cases hpush
          exact h.of_growth hstep (Nat.not_lt.1 hmax) rfl rfl rfl (hlength.trans (hexact ▸ rfl))
        case isFalse => cases hpush

theorem serve (h : a.Grown initial step most) (hstep : 0 < step) (call : ArrayCall α) :
    (a.serve call).2.Grown initial step (max most (a.serve call).2.length) := by
  cases call with
  | push reserve entry => exact h.push hstep reserve entry
  | next =>
    change a.next?.2.Grown initial step (max most a.next?.2.length)
    rw [next?]
    cases a.peek? <;> exact h.of_same_room rfl rfl rfl h.room
  | clear => exact h.of_same_room rfl rfl rfl (Nat.zero_le _)
  | _ => exact h.of_same_room rfl rfl rfl h.room

theorem run (h : a.Grown initial step most) (hstep : 0 < step) (calls : List (ArrayCall α)) :
    (a.run calls).Grown initial step (max most (a.peak calls)) := by
  induction calls generalizing a most with
  | nil =>
    rw [peak, Nat.max_eq_left h.length_le]
    exact h
  | cons call calls ih =>
    have hlater := length_le_peak (a.serve call).2 calls
    have hbefore := h.length_le
    have hmost : max most (a.peak (call :: calls)) =
        max (max most (a.serve call).2.length) ((a.serve call).2.peak calls) := by
      rw [peak]
      omega
    rw [hmost]
    exact ih (h.serve hstep call)

end Grown

theorem grown_of_withCapacity {reserve : Reserve} {increment : Nat}
    (h : withCapacity reserve initial increment = .ok a) (hinitial : initial ≤ maxIndex) :
    a.Grown initial (max increment 1) 0 := by
  rw [withCapacity] at h
  split at h
  · cases h
    exact ⟨rfl, by simp, hinitial, Nat.le_refl _, Nat.zero_le _, fun g _ => Nat.zero_le g⟩
  · cases h

/-- The entries are those pushed with success since the array was cleared, and there is room for
them. The room is what there was at first and a step for each growth, and no index is beyond the
last one. There have been as few growths as make room for the most entries there have been at any
time. A push fails only where the array is full, and either a step more is beyond the last index
or there is no memory for it. Then all is as it was. -/
theorem run_grown (reserve : Reserve) (initial increment : Nat) (a₀ : BlockArray α)
    (h : withCapacity reserve initial increment = .ok a₀) (hinitial : initial ≤ maxIndex)
    (calls : List (ArrayCall α)) :
    let step := max increment 1
    let a := a₀.run calls
    a.toList = (a₀.replies calls).foldl ArrayReply.stored [] ∧
    a.length ≤ a.capacity ∧
    a.capacity = initial + a.growths * step ∧ a.capacity ≤ maxIndex ∧ a.growths ≤ maxIndex ∧
    (∃ most, IsGreatest {n | ∃ k, (a₀.run (calls.take k)).length = n} most ∧
      IsLeast {g | most ≤ initial + g * step} a.growths) ∧
    ∀ (memory : Reserve) (entry : α) (e : OutOfMemory),
      let pushed := a.serve (.push memory entry)
      (pushed.1 = Except.error e ↔
        a.length = a.capacity ∧
          (maxIndex < a.capacity + step ∧ e = ⟨a.capacity⟩ ∨
            a.capacity + step ≤ maxIndex ∧ memory (a.capacity + step) = false ∧
              e = ⟨a.capacity + step⟩)) ∧
      (pushed.1 = Except.error e → pushed.2 = a) := by
  intro step a
  have hstep : 0 < step := Nat.le_max_right ..
  have hempty : a₀.toList = [] := by
    rw [withCapacity] at h
    split at h
    · cases h
      rfl
    · cases h
  have hgrown : a.Grown initial step (a₀.peak calls) := by
    have hrun := (grown_of_withCapacity h hinitial).run hstep calls
    rwa [Nat.max_eq_right (Nat.zero_le _)] at hrun
  refine ⟨by rw [← hempty]; exact toList_run a₀ calls, hgrown.room, hgrown.capacity,
    hgrown.bounded, hgrown.growths_le hstep, ⟨_, isGreatest_peak a₀ calls, hgrown.least⟩,
    fun memory entry e => ?_⟩
  intro pushed
  have hfull : a.length = a.capacity ↔ a.capacity ≤ a.length :=
    ⟨fun heq => Nat.le_of_eq heq.symm, fun hle => Nat.le_antisymm hgrown.room hle⟩
  have herror : pushed.1 = Except.error e ↔ a.push memory entry = .error e :=
    serve_push_eq_error_iff
  constructor
  · rw [herror, push_eq_error_iff, hfull, hgrown.increment]
  · intro hfails
    exact congrArg Prod.snd (serve_push_error (herror.1 hfails))

/-- Without a step, the array grows by one entry at a time. The room that was made before it was
cleared is used again, and the third entry after that finds neither room nor memory. -/
theorem run_grown_without_step :
    let memory (granted : Bool) : Reserve := fun _ => granted
    let a₀ : BlockArray Nat :=
      { entries := #[], capacity := 0, increment := 1, cursor := 0, growths := 0 }
    let calls : List (ArrayCall Nat) :=
      [.push (memory true) 1, .push (memory true) 2, .next, .clear, .push (memory false) 3,
        .push (memory false) 4]
    let a := a₀.run calls
    withCapacity (memory true) 0 0 = .ok a₀ ∧ a.toList = [3, 4] ∧ a.capacity = a.growths ∧
      a.growths = 2 ∧ (a.serve (.push (memory false) 5)).1 = Except.error ⟨3⟩ ∧
      (a.serve (.push (memory false) 5)).2 = a := by
  intro memory a₀ calls a
  have hstart : withCapacity (memory true) 0 0 = .ok a₀ := by rfl
  have hfull : a.length = a.capacity := by decide
  have hroom : a.capacity = 2 := by decide
  have hgrowths : a.growths = 2 := by decide
  have hstored : (a₀.replies calls).foldl ArrayReply.stored [] = [3, 4] := by decide
  obtain ⟨hentries, -, -, -, -, -, hpush⟩ :=
    run_grown (memory true) 0 0 a₀ hstart (Nat.zero_le _) calls
  obtain ⟨hfails, hsame⟩ := hpush (memory false) 5 ⟨3⟩
  have hnone : a.capacity + max 0 1 ≤ maxIndex ∧ memory false (a.capacity + max 0 1) = false ∧
      (⟨3⟩ : OutOfMemory) = ⟨a.capacity + max 0 1⟩ := by
    rw [hroom]
    exact ⟨by decide, rfl, rfl⟩
  have herror := hfails.2 ⟨hfull, .inr hnone⟩
  exact ⟨hstart, hentries.trans hstored, hroom.trans hgrowths.symm, hgrowths, herror,
    hsame herror⟩

end PulseMill.BlockArray
