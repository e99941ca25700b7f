import Mathlib.Data.List.Forall2
import Storyboard.Fault

/-!
# Storyboard.Proofs.Result

Computations that may fail.  One that is put together from others is opened by rewriting
with `bind_eq_ok` and `pure_eq_ok`, and never by unfolding the monad; what is made of a list
item by item is opened with `mapM_eq_some_iff`.
-/

namespace Storyboard

variable {α β : Type}

/-- A computation after another succeeds if both do. -/
theorem bind_eq_ok {x : Except Fault α} {f : α → Except Fault β} {b : β} :
    x >>= f = .ok b ↔ ∃ a, x = .ok a ∧ f a = .ok b := by
  cases x with
  | error e =>
    constructor
    · intro h; cases h
    · rintro ⟨a, h, -⟩; cases h
  | ok a =>
    constructor
    · intro h; exact ⟨a, rfl, h⟩
    · rintro ⟨a', h, h'⟩; cases h; exact h'

/-- After a computation that succeeds, it is up to the next one. -/
theorem exists_bind_eq_ok {x : Except Fault α} {f : α → Except Fault β} {a : α} (h : x = .ok a) :
    (∃ b, x >>= f = .ok b) ↔ ∃ b, f a = .ok b := by
  rw [h]
  rfl

theorem pure_eq_ok {a b : α} : (pure a : Except Fault α) = .ok b ↔ b = a := by
  constructor
  · intro h; cases h; rfl
  · rintro rfl; rfl

theorem throw_ne_ok {e : Fault} {a : α} : (throw e : Except Fault α) ≠ .ok a := by
  intro h; cases h

/-- A computation whose result is known to pass a test has such a result. -/
theorem exists_of_any {x : Except Fault α} {p : α → Bool} (h : x.toOption.any p = true) :
    ∃ a, x = .ok a ∧ p a = true := by
  cases x with
  | error e => exact absurd h Bool.false_ne_true
  | ok a => exact ⟨a, rfl, h⟩

/-- A computation that is known to succeed has a result. -/
theorem exists_of_isOk {x : Except Fault α} (h : x.isOk = true) : ∃ a, x = .ok a := by
  cases x with
  | error e => exact absurd h Bool.false_ne_true
  | ok a => exact ⟨a, rfl⟩

/-- With a state, after a computation that succeeds, it is up to the next one. -/
theorem run_bind_of_ok {σ : Type} {x : StateT σ (Except Fault) α}
    {f : α → StateT σ (Except Fault) β} {a : α} {s t : σ} (h : x.run s = .ok (a, t)) :
    (x >>= f).run s = (f a).run t := by
  rw [StateT.run_bind, h]
  rfl

/-! ## item by item -/

/-- A list is made item by item if each item of it is. -/
theorem mapM_eq_some_iff {f : α → Option β} {as : List α} {bs : List β} :
    as.mapM f = some bs ↔ List.Forall₂ (fun a b => f a = some b) as bs := by
  induction as generalizing bs with
  | nil => simp [eq_comm]
  | cons a as ih =>
    rw [List.mapM_cons, List.forall₂_cons_left_iff]
    simp only [Option.bind_eq_bind, Option.bind_eq_some_iff, Option.pure_def, Option.some.injEq,
      ih, eq_comm (b := bs)]
    constructor
    · rintro ⟨b, hb, bs', hbs', rfl⟩
      exact ⟨b, bs', hb, hbs', rfl⟩
    · rintro ⟨b, bs', hb, hbs', rfl⟩
      exact ⟨b, hb, bs', hbs', rfl⟩

theorem mapM_of_forall {f : α → Option β} {k : α → β} {as : List α}
    (h : ∀ a ∈ as, f a = some (k a)) : as.mapM f = some (as.map k) :=
  mapM_eq_some_iff.2 (List.forall₂_map_right_iff.2 (List.forall₂_same.2 h))

/-- Of two lists that are related item by item, every item of the first has a partner. -/
theorem exists_of_mem_of_forall₂ {R : α → β → Prop} {as : List α} {bs : List β}
    (h : List.Forall₂ R as bs) : ∀ a ∈ as, ∃ b ∈ bs, R a b := by
  induction h with
  | nil => simp
  | cons hab _ ih =>
    intro a ha
    rcases List.mem_cons.1 ha with rfl | ha
    · exact ⟨_, List.mem_cons_self, hab⟩
    · obtain ⟨b, hb, hR⟩ := ih a ha
      exact ⟨b, List.mem_cons_of_mem _ hb, hR⟩

theorem exists_of_mem_mapM {f : α → Option β} {as : List α} {bs : List β}
    (h : as.mapM f = some bs) {b : β} (hb : b ∈ bs) : ∃ a ∈ as, f a = some b :=
  exists_of_mem_of_forall₂ (mapM_eq_some_iff.1 h).flip b hb

end Storyboard
