/-!
# Storyboard.Number.Power

The powers of the two bases in which numbers are kept.

* `tens_add` — the power of a sum is the product of the powers.
-/

namespace Storyboard.Number

/-- A power of ten. -/
def tens (e : Nat) : Nat := Nat.pow 10 e

/-- A power of two. -/
def twos (e : Nat) : Nat := Nat.pow 2 e

@[simp] theorem tens_zero : tens 0 = 1 := rfl

theorem tens_succ (e : Nat) : tens (e + 1) = tens e * 10 := rfl

theorem tens_pos (e : Nat) : 0 < tens e := Nat.pow_pos (by decide)

theorem tens_add (e f : Nat) : tens (e + f) = tens e * tens f := Nat.pow_add 10 e f

@[simp] theorem twos_zero : twos 0 = 1 := rfl

theorem twos_pos (e : Nat) : 0 < twos e := Nat.pow_pos (by decide)

end Storyboard.Number
