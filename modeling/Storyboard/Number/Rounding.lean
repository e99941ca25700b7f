/-!
# Storyboard.Number.Rounding

Rounding of a non-negative quotient to a whole number.  `roundHalfEven` is the rule of
all printed and computed numbers of the library: the nearer neighbour, and of two
equally near ones the even.
-/

namespace Storyboard.Number

/-- The whole number nearest to `n / d`, a half going to the even neighbour. -/
def roundHalfEven (n d : Nat) : Nat :=
  let q := n / d
  let r := n % d
  if 2 * r < d then q
  else if d < 2 * r then q + 1
  else if q % 2 = 0 then q else q + 1

/-- The rounded quotient is within half a divisor of the dividend. -/
theorem roundHalfEven_near (n d : Nat) (h : 0 < d) :
    2 * n ≤ 2 * (roundHalfEven n d * d) + d ∧ 2 * (roundHalfEven n d * d) ≤ 2 * n + d := by
  have hn := Nat.div_add_mod n d
  have hr := Nat.mod_lt n h
  rw [Nat.mul_comm d] at hn
  simp only [roundHalfEven]
  split
  · omega
  · split
    · rw [Nat.add_mul]; omega
    · split
      · omega
      · rw [Nat.add_mul]; omega

/-- An exact quotient is not changed. -/
@[simp] theorem roundHalfEven_mul (q d : Nat) (h : 0 < d) : roundHalfEven (q * d) d = q := by
  simp [roundHalfEven, Nat.mul_mod_left, Nat.mul_div_cancel q h, h]

/-- How many decimal digits a number is written with. -/
def digitCount (n : Nat) : Nat := n.repr.length

end Storyboard.Number
