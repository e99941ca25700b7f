import Storyboard.Number.Double

/-!
# Storyboard.Number.Extended

The order in which numbers of different kinds are compared: by exact value, with the
infinities at the two ends.  A NaN is on neither side of anything, so every comparison
with it is false.
-/

namespace Storyboard

/-- A rational number, an infinity, or no number. -/
inductive Extended
  | finite (value : Rat)
  | infinite (negative : Bool)
  | nan
  deriving DecidableEq

namespace Extended

/-- An integer as an extended number. -/
def ofInt (i : Int) : Extended := .finite i

/-- A floating-point number as an extended number. -/
def ofDouble (x : Double) : Extended :=
  match x with
  | .infinite negative => .infinite negative
  | .nan => .nan
  | x => (x.toRat?).elim .nan .finite

/-- Whether `x < y`. -/
def lt : Extended → Extended → Bool
  | .finite p, .finite q => decide (p < q)
  | .finite _, .infinite negative => !negative
  | .infinite negative, .finite _ => negative
  | .infinite n, .infinite n' => n && !n'
  | _, _ => false

/-- Whether `x ≤ y`. -/
def le : Extended → Extended → Bool
  | .finite p, .finite q => decide (p ≤ q)
  | .finite _, .infinite negative => !negative
  | .infinite negative, .finite _ => negative
  | .infinite n, .infinite n' => n || !n'
  | _, _ => false

/-- Whether `x = y`. -/
def eqv : Extended → Extended → Bool
  | .finite p, .finite q => decide (p = q)
  | .infinite n, .infinite n' => n == n'
  | _, _ => false

@[simp] theorem nan_lt (x : Extended) : lt .nan x = false := rfl

@[simp] theorem lt_nan (x : Extended) : lt x .nan = false := by cases x <;> rfl

@[simp] theorem nan_le (x : Extended) : le .nan x = false := rfl

@[simp] theorem le_nan (x : Extended) : le x .nan = false := by cases x <;> rfl

@[simp] theorem finite_lt_iff {p q : Rat} : lt (.finite p) (.finite q) = true ↔ p < q := by
  simp [lt]

@[simp] theorem finite_le_iff {p q : Rat} : le (.finite p) (.finite q) = true ↔ p ≤ q := by
  simp [le]

end Extended

end Storyboard
