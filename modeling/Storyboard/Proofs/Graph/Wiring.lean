import Mathlib.Data.List.Perm.Basic
import Storyboard.Graph.Basic
import Storyboard.Proofs.Graph.Label

/-!
# Storyboard.Proofs.Graph.Wiring

How statements hand pads on.  A pad that a statement writes is *open* until a statement
reads it, and reading it closes it.  `Wired opened nodes left` says that the statements,
in their order, read only pads that are open at that moment, and leave the pads `left`
open; streams of input files are always there and do not count.

* `Wired.append`, `Wired.frame` — wirings are put together;
* `Wired.perm` — every pad that was open or is written is read once or left open;
* `Wired.earlier` — what a statement reads was open or is written before it.

`Writes P nodes` says that the statements write different pads, all of them with `P`.
-/

namespace Storyboard

/-! ## pads that statements write -/

namespace Pad

/-- A pad that a statement of a compiled graph may write. -/
def IsWritten (p : Pad) : Prop := p.kind?.isSome = true ∧ p.isInput = false

theorem isWritten_background (i : Int) : IsWritten (.background i) := ⟨rfl, rfl⟩

theorem isWritten_layer (i j : Int) : IsWritten (.layer i j) := ⟨rfl, rfl⟩

theorem isWritten_transition (k : Int) : IsWritten (.transition k) := ⟨rfl, rfl⟩

/-- A stream of an input file has a kind. -/
theorem isSome_kind?_of_isInput {p : Pad} (h : p.isInput = true) : p.kind?.isSome = true := by
  cases p with
  | input k stream => rfl
  | _ => simp [isInput] at h

end Pad

/-! ## open pads -/

namespace Node

/-- The pads that a statement closes: what it reads, less the streams of input files. -/
def closed (n : Node) : List Pad := n.inputs.filter fun p => !p.isInput

/-- A statement that reads no file closes all that it reads. -/
theorem closed_eq_inputs {n : Node} (h : ∀ p ∈ n.inputs, p.isInput = false) :
    n.closed = n.inputs := by
  rw [closed, List.filter_eq_self]
  intro p hp
  rw [h p hp]
  rfl

/-- What is read is the stream of a file or is closed. -/
theorem mem_closed {n : Node} {p : Pad} :
    p ∈ n.closed ↔ p ∈ n.inputs ∧ p.isInput = false := by
  simp [closed]

end Node

/-- With `opened` open, the statements read open pads only and leave `left` open. -/
inductive Wired : List Pad → List Node → List Pad → Prop
  | nil {opened left : List Pad} (h : opened.Perm left) : Wired opened [] left
  | cons {opened rest left : List Pad} {n : Node} {nodes : List Node}
      (h : opened.Perm (n.closed ++ rest)) (hnodes : Wired (n.output :: rest) nodes left) :
      Wired opened (n :: nodes) left

namespace Wired

variable {opened mid left more : List Pad} {xs ys nodes : List Node} {n : Node}

theorem refl (opened : List Pad) : Wired opened [] opened := .nil (.refl opened)

/-- The order of the open pads does not matter. -/
theorem of_perm (h : opened.Perm mid) (hw : Wired mid nodes left) : Wired opened nodes left := by
  cases hw with
  | nil h' => exact .nil (h.trans h')
  | cons h' hnodes => exact .cons (h.trans h') hnodes

/-- One statement alone closes what it reads and opens what it writes. -/
theorem single (n : Node) : Wired n.closed [n] [n.output] := by
  refine .cons ?_ (refl [n.output])
  rw [List.append_nil]

theorem append (hx : Wired opened xs mid) (hy : Wired mid ys left) :
    Wired opened (xs ++ ys) left := by
  induction hx with
  | nil h => exact of_perm h hy
  | cons h _ ih => exact .cons h (ih hy)

/-- Pads that take no part stay open. -/
theorem frame (more : List Pad) (hw : Wired opened nodes left) :
    Wired (opened ++ more) nodes (left ++ more) := by
  induction hw with
  | nil h => exact .nil (h.append_right more)
  | @cons opened rest left n nodes h _ ih =>
    have hnodes : Wired (n.output :: (rest ++ more)) nodes (left ++ more) := ih
    refine .cons ?_ hnodes
    rw [← List.append_assoc]
    exact h.append_right more

/-- Pads that take no part stay open, also in front of the others. -/
theorem frame_left (more : List Pad) (hw : Wired opened nodes left) :
    Wired (more ++ opened) nodes (more ++ left) := by
  have h : Wired (more ++ opened) (nodes ++ []) (more ++ left) :=
    (of_perm List.perm_append_comm (hw.frame more)).append (.nil List.perm_append_comm)
  rwa [List.append_nil] at h

/-- What was open or is written is read once, or is left open. -/
theorem perm (hw : Wired opened nodes left) :
    (opened ++ nodes.map Node.output).Perm (nodes.flatMap Node.closed ++ left) := by
  induction hw with
  | nil h => simpa using h
  | @cons opened rest left n nodes h _ ih =>
    rw [List.map_cons, List.flatMap_cons, List.append_assoc]
    calc (opened ++ n.output :: nodes.map Node.output).Perm
          (n.closed ++ rest ++ n.output :: nodes.map Node.output) := h.append_right _
      _ = n.closed ++ (rest ++ n.output :: nodes.map Node.output) := List.append_assoc ..
      (n.closed ++ (rest ++ n.output :: nodes.map Node.output)).Perm
          (n.closed ++ (n.output :: rest ++ nodes.map Node.output)) :=
        List.perm_middle.append_left _
      (n.closed ++ (n.output :: rest ++ nodes.map Node.output)).Perm
          (n.closed ++ (nodes.flatMap Node.closed ++ left)) := ih.append_left _

/-- What a statement reads was open at the start or is written by a statement before it. -/
theorem earlier (hw : Wired opened nodes left) (h : nodes = xs ++ n :: ys) {p : Pad}
    (hp : p ∈ n.closed) : p ∈ opened ∨ p ∈ xs.map Node.output := by
  induction hw generalizing xs with
  | nil => simp at h
  | @cons opened rest left m nodes hperm _ ih =>
    cases xs with
    | nil =>
      obtain ⟨rfl, -⟩ := List.cons.inj h
      exact .inl (hperm.mem_iff.2 (List.mem_append_left _ hp))
    | cons x xs =>
      obtain ⟨rfl, htail⟩ := List.cons.inj h
      cases ih htail with
      | inl hopen =>
          rcases List.mem_cons.1 hopen with rfl | hrest
          · exact .inr (by simp)
          · exact .inl (hperm.mem_iff.2 (List.mem_append_right _ hrest))
      | inr hwritten => exact .inr (List.mem_cons_of_mem _ hwritten)

end Wired

/-! ## different outputs -/

/-- The statements write different pads, each with `P`. -/
structure Writes (P : Pad → Prop) (nodes : List Node) : Prop where
  nodup : (nodes.map Node.output).Nodup
  each : ∀ p ∈ nodes.map Node.output, P p

namespace Writes

variable {P Q R : Pad → Prop} {xs ys : List Node} {n : Node}

theorem nil : Writes P [] := ⟨List.nodup_nil, by simp⟩

theorem single (h : P n.output) : Writes P [n] := ⟨by simp, by simpa using h⟩

theorem mono (hx : Writes P xs) (h : ∀ p, P p → Q p) : Writes Q xs :=
  ⟨hx.nodup, fun p hp => h p (hx.each p hp)⟩

/-- Statements whose pads have nothing to do with each other are put together. -/
theorem append (hx : Writes P xs) (hy : Writes Q ys) (hdisjoint : ∀ p, P p → Q p → False)
    (hP : ∀ p, P p → R p) (hQ : ∀ p, Q p → R p) : Writes R (xs ++ ys) := by
  constructor
  · rw [List.map_append, List.nodup_append]
    refine ⟨hx.nodup, hy.nodup, ?_⟩
    rintro p hp q hq rfl
    exact hdisjoint p (hx.each p hp) (hy.each p hq)
  · intro p hp
    rw [List.map_append, List.mem_append] at hp
    cases hp with
    | inl hp => exact hP p (hx.each p hp)
    | inr hp => exact hQ p (hy.each p hp)

end Writes

end Storyboard
