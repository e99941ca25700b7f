import Storyboard.Color
import Storyboard.Value.Time

/-!
# Storyboard.Spec.Field

What a field of a specification may hold.  Every check takes the value and its place and
either hands the value on in the type it asks for or says which demand is broken.  A
truth value is never a number here.

* `number_ok_iff` — what `number` accepts;
* `choice_ok_iff` — what `choice` accepts.
-/

namespace Storyboard.Spec.Field

/-- The range a number has to keep to. -/
structure Range where
  positive : Bool := false
  minimum : Option Int := none
  maximum : Option Int := none
  deriving DecidableEq, Repr

namespace Range

/-- Any number. -/
def any : Range := {}

/-- More than zero. -/
def aboveZero : Range := { positive := true }

/-- Zero or more. -/
def fromZero : Range := { minimum := some 0 }

/-- From zero up to a bound. -/
def upTo (bound : Int) : Range := { minimum := some 0, maximum := some bound }

/-- The demand that a number breaks, if any.  A NaN breaks none. -/
def brokenBy (r : Range) (x : Extended) : Option Demand :=
  if r.positive && x.le (.ofInt 0) then some .positive
  else if r.minimum.any fun m => x.lt (.ofInt m) then r.minimum.map .atLeast
  else if r.maximum.any fun m => Extended.lt (.ofInt m) x then r.maximum.map .atMost
  else none

end Range

/-- The number that a value is: an integer or a floating-point number, nothing else. -/
def number? : Value → Option Extended
  | .int i => some (.ofInt i)
  | .float x => some (.ofDouble x)
  | _ => none

/-- A mapping. -/
def mapping (place : Place) (v : Value) : Except Fault Entries :=
  match v.opened with
  | .map entries => .ok entries
  | _ => .error (.broken place .mapping)

/-- A list. -/
def list (place : Place) (v : Value) : Except Fault (List Value) :=
  match v.opened with
  | .list items => .ok items
  | _ => .error (.broken place .list)

/-- A list, where nothing stands for the empty one. -/
def listOrNothing (place : Place) (v : Value) : Except Fault (List Value) :=
  if v.isTruthy then list place v else .ok []

/-- A mapping, where nothing stands for the empty one. -/
def mappingOrNothing (place : Place) (v : Value) : Except Fault Entries :=
  if v.isTruthy then mapping place v else .ok []

/-- A number in a range. -/
def number (range : Range) (place : Place) (v : Value) : Except Fault Value :=
  match number? v with
  | none => .error (.broken place .number)
  | some x =>
    match range.brokenBy x with
    | some demand => .error (.broken place demand)
    | none => .ok v

/-- A number in a range, or nothing. -/
def optionalNumber (range : Range) (place : Place) (v : Value) : Except Fault Value :=
  match v with
  | .null => .ok .null
  | v => number range place v

/-- A whole number in a range; a floating-point number without a fraction is one. -/
def integer (range : Range) (place : Place) (v : Value) : Except Fault Value := do
  match ← number range place v with
  | .float x =>
    let i ← x.toInt
    if (Extended.ofInt i).eqv (.ofDouble x) then return .int i
    else throw (.broken place .integer)
  | v => return v

/-- A frame rate: a number above zero, or a text that denotes one exactly. -/
def rate (place : Place) (v : Value) : Except Fault Value := do
  match v with
  | .text _ =>
    let q ← v.toRate
    if q ≤ 0 then throw (.broken place .positive) else return .ratio q
  | v => number .aboveZero place v

/-- A text with at least one character. -/
def string (place : Place) (v : Value) : Except Fault String :=
  match v with
  | .text s => if s = "" then .error (.broken place .filledString) else .ok s
  | _ => .error (.broken place .filledString)

/-- One of the given words. -/
def choice (choices : List String) (place : Place) (v : Value) : Except Fault String :=
  match v with
  | .text s => if s ∈ choices then .ok s else .error (.broken place (.oneOf choices))
  | _ => .error (.broken place (.oneOf choices))

/-- A truth value. -/
def boolean (place : Place) (v : Value) : Except Fault Bool :=
  match v with
  | .bool b => .ok b
  | _ => .error (.broken place .boolean)

/-- A color. -/
def color (place : Place) (v : Value) : Except Fault String :=
  match v with
  | .text s =>
    if s = "" then .error (.broken place .colorString)
    else if Color.isColor s then .ok s
    else .error (.refused (.notColor place s))
  | _ => .error (.broken place .colorString)

theorem number_ok_iff {range : Range} {place : Place} {v w : Value} :
    number range place v = .ok w ↔
      w = v ∧ ∃ x, number? v = some x ∧ range.brokenBy x = none := by
  unfold number
  constructor
  · intro h
    split at h
    · cases h
    · rename_i x hx
      split at h
      · cases h
      · rename_i hr
        cases h
        exact ⟨rfl, x, hx, hr⟩
  · rintro ⟨rfl, x, hx, hr⟩
    simp [hx, hr]

theorem choice_ok_iff {choices : List String} {place : Place} {v : Value} {s : String} :
    choice choices place v = .ok s ↔ v = .text s ∧ s ∈ choices := by
  unfold choice
  constructor
  · intro h
    split at h
    · split at h
      · rename_i hs
        cases h
        exact ⟨rfl, hs⟩
      · cases h
    · cases h
  · rintro ⟨rfl, hs⟩
    simp [hs]

end Storyboard.Spec.Field

namespace Storyboard.Entries

/-- The value under a name or, where that is missing, under another spelling of it. -/
def pick (entries : Entries) (name spelling : String) (other : Value) : Value :=
  ((entries.get? name).or (entries.get? spelling)).getD other

end Storyboard.Entries
