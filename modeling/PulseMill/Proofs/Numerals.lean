import Mathlib.Tactic.IntervalCases
import PulseMill.Assembly.Number
set_option autoImplicit false

namespace PulseMill.Assembly

theorem digit?_digitChar {base d : Nat} (hbase : base ≤ 16) (h : d < base) :
    digit? base d.digitChar = some d := by
  have hd : d < 16 := by omega
  have hchar : digit? base d.digitChar = (some d).filter (· < base) := by
    clear h
    interval_cases d <;> rfl
  rw [hchar, Option.filter_some_pos (by simpa using h)]

theorem value?_toDigits {base : Nat} (hone : 1 < base) (hbase : base ≤ 16) (n : Nat) :
    value? base (Nat.toDigits base n) = some n := by
  induction n using Nat.strongRecOn with
  | ind n ih =>
    rw [Nat.toDigits_eq_if hone]
    split
    case isTrue hless => simp [value?, digit?_digitChar hbase hless]
    case isFalse hle =>
      have hlast := digit?_digitChar hbase (Nat.mod_lt n (by omega))
      rw [value?_append, ih _ (Nat.div_lt_self (by omega) hone)]
      simp [hlast, Nat.div_add_mod]

theorem head?_toDigits {n : Nat} (h : n ≠ 0) : (Nat.toDigits 10 n).head? ≠ some '0' := by
  induction n using Nat.strongRecOn with
  | ind n ih =>
    rw [Nat.toDigits_eq_if (by decide)]
    split
    case isTrue hless => interval_cases n <;> first | exact absurd rfl h | decide
    case isFalse hle =>
      have hfirst := ih (n / 10) (Nat.div_lt_self (by omega) (by decide)) (by omega)
      obtain ⟨c, cs, hcs⟩ : ∃ c cs, Nat.toDigits 10 (n / 10) = c :: cs :=
        List.exists_cons_of_ne_nil Nat.toDigits_ne_nil
      rw [hcs] at hfirst ⊢
      exact hfirst

theorem baseAndDigits_toDigits (n : Nat) :
    baseAndDigits (Nat.toDigits 10 n) = (10, Nat.toDigits 10 n) := by
  by_cases h : n = 0
  · subst h
    rfl
  · have hhead := head?_toDigits h
    unfold baseAndDigits
    split
    case h_4 => rfl
    all_goals
      rename_i heq
      rw [heq] at hhead
      exact absurd rfl hhead

theorem readNumeral_toDigits (w : UInt32) : readNumeral (Nat.toDigits 10 w.toNat) = .ok w := by
  have hsign : (Nat.toDigits 10 w.toNat).head? ≠ some '-' := by
    intro h
    have hdigit := Nat.isDigit_of_mem_toDigits (b := 10) (by decide) (by decide)
      (List.mem_of_mem_head? h)
    simp at hdigit
  have hsome : (Nat.toDigits 10 w.toNat).isEmpty = false := by simp
  rw [readNumeral, if_neg hsign, baseAndDigits_toDigits]
  have hvalue := value?_toDigits (by decide : 1 < 10) (by decide) w.toNat
  simp [hvalue, hsome, w.toNat_lt]

end PulseMill.Assembly
