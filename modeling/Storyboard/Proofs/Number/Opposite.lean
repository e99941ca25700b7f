import Storyboard.Number.Double

/-!
# Storyboard.Proofs.Number.Opposite

The opposite of a floating-point number.  Rounding works on the magnitude alone, so the
nearest number to the opposite of a ratio or of a decimal is the opposite number.
-/

namespace Storyboard

namespace Double

theorem neg_ofParts (negative : Bool) (m : Nat) (e : Int) :
    (ofParts negative m e).neg = ofParts (!negative) m e := by
  unfold ofParts
  split <;> rfl

theorem neg_ofRatio (negative : Bool) (n d : Nat) :
    (ofRatio negative n d).neg = ofRatio (!negative) n d := by
  unfold ofRatio
  split
  · rfl
  · dsimp only
    split <;> rw [neg_ofParts]

theorem neg_ofDigits (negative : Bool) (c : Nat) (e : Int) :
    (ofDigits negative c e).neg = ofDigits (!negative) c e := by
  unfold ofDigits
  split
  · rfl
  · dsimp only
    split
    · rfl
    · split
      · rfl
      · split <;> rw [neg_ofRatio]

end Double

end Storyboard
