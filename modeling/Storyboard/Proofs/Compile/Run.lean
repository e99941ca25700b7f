import Storyboard.Compile.Inputs
import Storyboard.Proofs.Result

/-!
# Storyboard.Proofs.Compile.Run

What a step of compilation gives.  A step may register files and may fail; `Gives x s a s'`
says that `x`, started with the inputs `s`, succeeds with `a` and leaves the inputs `s'`.
Each way of putting steps together has one equivalence, so a step is opened by rewriting
and never by unfolding the monad:

* `gives_bind`, `gives_lift_bind`, `gives_register_bind` — one step after another.
-/

namespace Storyboard

variable {α β : Type}

/-! ## the inputs -/

namespace Inputs

/-- The inputs with more sources registered after the ones there are. -/
def extend (s : Inputs) (srcs : List String) : Inputs :=
  { s with paths := s.paths ++ srcs.map (Path.resolve s.base) }

@[simp] theorem extend_nil (s : Inputs) : s.extend [] = s := by
  simp [extend]

@[simp] theorem extend_base (s : Inputs) (srcs : List String) : (s.extend srcs).base = s.base :=
  rfl

@[simp] theorem extend_paths (s : Inputs) (srcs : List String) :
    (s.extend srcs).paths = s.paths ++ srcs.map (Path.resolve s.base) :=
  rfl

theorem extend_append (s : Inputs) (srcs more : List String) :
    s.extend (srcs ++ more) = (s.extend srcs).extend more := by
  simp [extend, List.append_assoc]

theorem length_extend (s : Inputs) (srcs : List String) :
    (s.extend srcs).paths.length = s.paths.length + srcs.length := by
  simp

end Inputs

/-! ## steps -/

namespace Build

/-- Step `x` succeeds with `a` and takes the inputs from `s` to `s'`. -/
def Gives (x : Build α) (s : Inputs) (a : α) (s' : Inputs) : Prop :=
  x.run.run s = (.ok a, s')

/-- A step that is known to succeed gives something. -/
theorem exists_gives {x : Build α} {s : Inputs} (h : (x.run.run s).1.isOk = true) :
    ∃ a s', Gives x s a s' := by
  obtain ⟨a, ha⟩ := exists_of_isOk h
  exact ⟨a, _, Prod.ext ha rfl⟩

/-- A step gives one thing from the same inputs. -/
theorem Gives.unique {x : Build α} {a b : α} {s u v : Inputs} (h : Gives x s a u)
    (h' : Gives x s b v) : a = b ∧ u = v := by
  obtain ⟨ha, hu⟩ := Prod.ext_iff.1 (h.symm.trans h')
  exact ⟨Except.ok.inj ha, hu⟩

theorem gives_pure {a b : α} {s s' : Inputs} : Gives (pure a) s b s' ↔ b = a ∧ s' = s := by
  constructor
  · intro h; cases h; exact ⟨rfl, rfl⟩
  · rintro ⟨rfl, rfl⟩; rfl

theorem gives_bind {x : Build α} {f : α → Build β} {b : β} {s s' : Inputs} :
    Gives (x >>= f) s b s' ↔ ∃ a t, Gives x s a t ∧ Gives (f a) t b s' := by
  simp only [Gives, ExceptT.run_bind, StateT.run_bind]
  rcases hx : x.run.run s with ⟨_ | a, t⟩
  · constructor
    · intro h; cases h
    · rintro ⟨a, t', h, -⟩; cases h
  · constructor
    · intro h; exact ⟨a, t, rfl, h⟩
    · rintro ⟨a', t', h, h'⟩; cases h; exact h'

/-- A computation without inputs leaves them as they are. -/
theorem gives_lift {x : Except Fault α} {a : α} {s s' : Inputs} :
    Gives (liftM x) s a s' ↔ x = .ok a ∧ s' = s := by
  constructor
  · intro h
    cases x with
    | error e => cases h
    | ok a => cases h; exact ⟨rfl, rfl⟩
  · rintro ⟨rfl, rfl⟩; rfl

theorem gives_lift_bind {x : Except Fault α} {f : α → Build β} {b : β} {s s' : Inputs} :
    Gives (liftM x >>= f) s b s' ↔ ∃ a, x = .ok a ∧ Gives (f a) s b s' := by
  simp only [gives_bind, gives_lift]
  constructor
  · rintro ⟨a, t, ⟨hx, rfl⟩, h⟩; exact ⟨a, hx, h⟩
  · rintro ⟨a, hx, h⟩; exact ⟨a, s, ⟨hx, rfl⟩, h⟩

theorem not_gives_throw {e : Fault} {a : α} {s s' : Inputs} : ¬ Gives (throw e) s a s' := by
  intro h; cases h

/-- A registration gives the next index, and needs a source that is not empty. -/
theorem gives_register {src : String} {k : Nat} {s s' : Inputs} :
    Gives (Inputs.register src) s k s' ↔
      src ≠ "" ∧ k = s.paths.length ∧ s' = s.extend [src] := by
  by_cases h : src = ""
  · subst h
    rw [Gives, Inputs.register_empty]
    constructor
    · intro h; cases h
    · rintro ⟨h, -⟩; exact absurd rfl h
  · rw [Gives, Inputs.register_paths h]
    constructor
    · intro h'; cases h'; exact ⟨h, rfl, rfl⟩
    · rintro ⟨-, rfl, rfl⟩; rfl

theorem gives_register_bind {src : String} {f : Nat → Build β} {b : β} {s s' : Inputs} :
    Gives (Inputs.register src >>= f) s b s' ↔
      src ≠ "" ∧ Gives (f s.paths.length) (s.extend [src]) b s' := by
  simp only [gives_bind, gives_register]
  constructor
  · rintro ⟨k, t, ⟨h, rfl, rfl⟩, h'⟩; exact ⟨h, h'⟩
  · rintro ⟨h, h'⟩; exact ⟨_, _, ⟨h, rfl, rfl⟩, h'⟩

end Build

end Storyboard
