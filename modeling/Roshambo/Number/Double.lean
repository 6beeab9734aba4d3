/-!
# Doubles

A double has 53 significant bits and an exponent that stops short of 1024. `round` takes a natural
number to the nearest one with as many bits, `bound` is where a product of two such numbers is
rounded to infinity. `round_eq_self` says that short numbers are kept, `round_le` that no number
grows by more than half of its last place.
-/
namespace Roshambo.Double

/-- What the last of the first 53 bits counts. -/
def lastPlace (n : Nat) : Nat := 1 <<< (n.log2 - 52)

/-- The nearest number with 53 significant bits; of two equally near, the one that ends in a zero
bit. -/
def round (n : Nat) : Nat :=
  let significand := n / lastPlace n
  let rest := 2 * (n % lastPlace n)
  let up := lastPlace n < rest ∨ lastPlace n = rest ∧ significand % 2 = 1
  (if up then significand + 1 else significand) * lastPlace n

/-- Half of the last place above the largest double. -/
def bound : Nat := 1 <<< 1024 - 1 <<< 970

theorem lastPlace_eq_one {n : Nat} (h : n < 1 <<< 53) : lastPlace n = 1 := by
  have : n.log2 ≤ 52 := by
    by_cases hn : n = 0
    · simp [hn]
    · exact Nat.le_of_lt_succ ((Nat.log2_lt hn).2 h)
  simp [lastPlace, Nat.sub_eq_zero_of_le this]

theorem round_eq_self {n : Nat} (h : n < 1 <<< 53) : round n = n := by
  simp [round, lastPlace_eq_one h, Nat.mod_one]

theorem round_le (n : Nat) : 2 * round n ≤ 2 * n + lastPlace n := by
  have parts := Nat.div_add_mod n (lastPlace n)
  rw [Nat.mul_comm] at parts
  simp only [round]
  split
  · rw [Nat.add_mul]; omega
  · omega

theorem lastPlace_le {n : Nat} (h : n ≠ 0) : lastPlace n ≤ n :=
  calc lastPlace n = 2 ^ (n.log2 - 52) := by rw [lastPlace, Nat.one_shiftLeft]
    _ ≤ 2 ^ n.log2 := Nat.pow_le_pow_right (by decide) (Nat.sub_le _ _)
    _ ≤ n := Nat.log2_self_le h

theorem round_le_two_mul (n : Nat) : round n ≤ 2 * n := by
  by_cases zero : n = 0
  · simp [zero, round_eq_self]
  · have := round_le n
    have := lastPlace_le zero
    omega

end Roshambo.Double
