import Mathlib.Algebra.Group.Nat.Defs

/-!
# Numbers as digits

The digits of a number in a base up to sixteen are written back to that number only, and a number
of so many digits is known by them.
-/

namespace Nyc.Data

variable {b : Nat}

theorem digitChar_inj : ∀ d < 16, ∀ d' < 16, Nat.digitChar d = Nat.digitChar d' → d = d' := by
  decide

theorem mem_toDigits (base : 1 < b) (n : Nat) {c : Char} (there : c ∈ Nat.toDigits b n) :
    ∃ d < b, c = Nat.digitChar d := by
  induction n using Nat.strongRecOn with
  | ind n ih =>
    by_cases small : n < b
    · rw [Nat.toDigits_of_lt_base small] at there
      exact ⟨n, small, List.mem_singleton.mp there⟩
    · rw [Nat.toDigits_of_base_le base (by omega)] at there
      rcases List.mem_append.mp there with front | last
      · exact ih (n / b) (Nat.div_lt_self (by omega) base) front
      · exact ⟨n % b, Nat.mod_lt n (by omega), List.mem_singleton.mp last⟩

/-- A character that is no digit is not among the digits. -/
theorem not_mem_toDigits (base : 1 < b) (most : b ≤ 16) (n : Nat) {c : Char}
    (other : ∀ d < 16, Nat.digitChar d ≠ c) : c ∉ Nat.toDigits b n := by
  intro there
  obtain ⟨d, below, same⟩ := mem_toDigits base n there
  exact other d (by omega) same.symm

theorem toDigits_inj (base : 1 < b) (most : b ≤ 16) {n m : Nat}
    (same : Nat.toDigits b n = Nat.toDigits b m) :
    n = m := by
  induction n using Nat.strongRecOn generalizing m with
  | ind n ih =>
    by_cases small : n < b
    · by_cases small' : m < b
      · rw [Nat.toDigits_of_lt_base small, Nat.toDigits_of_lt_base small'] at same
        exact digitChar_inj n (by omega) m (by omega) (List.singleton_inj.mp same)
      · rw [Nat.toDigits_of_lt_base small, Nat.toDigits_of_base_le base (by omega)] at same
        have longer := congrArg List.length same
        have := Nat.length_toDigits_pos (b := b) (n := m / b)
        simp only [List.length_append, List.length_singleton] at longer
        omega
    · by_cases small' : m < b
      · rw [Nat.toDigits_of_lt_base small', Nat.toDigits_of_base_le base (by omega)] at same
        have longer := congrArg List.length same
        have := Nat.length_toDigits_pos (b := b) (n := n / b)
        simp only [List.length_append, List.length_singleton] at longer
        omega
      · rw [Nat.toDigits_of_base_le base (by omega),
          Nat.toDigits_of_base_le base (n := m) (by omega)] at same
        obtain ⟨front, last⟩ := List.append_inj' same rfl
        have high := ih (n / b) (Nat.div_lt_self (by omega) base) front
        have low : n % b = m % b := by
          have below := Nat.mod_lt n (show 0 < b by omega)
          have below' := Nat.mod_lt m (show 0 < b by omega)
          exact digitChar_inj _ (by omega) _ (by omega) (List.singleton_inj.mp last)
        rw [← Nat.div_add_mod n b, ← Nat.div_add_mod m b, high, low]

/-- Numbers of `k` digits with the same digits. -/
theorem eq_of_digits {k n m : Nat} (below : n < b ^ k) (below' : m < b ^ k)
    (same : ∀ i < k, n / b ^ i % b = m / b ^ i % b) : n = m := by
  induction k generalizing n m with
  | zero =>
    rw [Nat.pow_zero] at below below'
    omega
  | succ k ih =>
    have high : n / b = m / b := by
      apply ih
      · exact Nat.div_lt_of_lt_mul (by rwa [Nat.mul_comm, ← Nat.pow_succ])
      · exact Nat.div_lt_of_lt_mul (by rwa [Nat.mul_comm, ← Nat.pow_succ])
      · intro i small
        have digit := same (i + 1) (by omega)
        rwa [Nat.pow_succ, Nat.mul_comm, ← Nat.div_div_eq_div_mul, ← Nat.div_div_eq_div_mul]
          at digit
    have low : n % b = m % b := by simpa using same 0 (by omega)
    rw [← Nat.div_add_mod n b, ← Nat.div_add_mod m b, high, low]

end Nyc.Data
