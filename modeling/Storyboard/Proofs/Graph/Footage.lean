import Mathlib.Logic.Function.Basic
import Storyboard.Graph.Basic
import Storyboard.Proofs.Number.Printed

/-!
# Storyboard.Proofs.Graph.Footage

What the statements of a graph make of the size, the rate and the length of a picture.  Each
filter has its effect on what is known of a stream; a statement has the effects of its filters,
one after another, on the first stream that it reads, and nothing is known of the stream of a
file.  What is known of a pad is what the last statement that writes it has made.

* `footageAfter_of_notMem` — a pad that no statement writes keeps what is known of it;
* `Explains` — of every statement the pad that it writes is what the statement makes of the pads
  that it reads.
-/

namespace Storyboard

/-- What is known of the pictures of a stream. -/
structure Footage where
  /-- Width and height, with an `x` between them. -/
  size? : Option String := none
  /-- How many pictures there are in a second, as it is written. -/
  rate? : Option String := none
  /-- For how many seconds there are pictures. -/
  length? : Option ℚ := none
  deriving DecidableEq

/-! ## filters -/

namespace FilterOption

variable {name name' value : String} {os : List FilterOption}

/-- The value of the option with a name, the first if there are more. -/
def value? (name : String) (os : List FilterOption) : Option String :=
  (os.find? fun o => o.name? == some name).map FilterOption.value

/-- The number that is the value of the option with a name. -/
def number? (name : String) (os : List FilterOption) : Option ℚ :=
  (value? name os).bind Numeral.read?

/-- The values of the options that are known by their positions. -/
def positionals (os : List FilterOption) : List String :=
  (os.filter fun o => o.name?.isNone).map FilterOption.value

@[simp] theorem value?_named_self : value? name (named name value :: os) = some value := by
  simp [value?, named]

@[simp] theorem value?_named_of_ne (h : name' ≠ name) :
    value? name (named name' value :: os) = value? name os := by
  simp [value?, named, h]

@[simp] theorem value?_nil : value? name [] = none := rfl

@[simp] theorem number?_named_self :
    number? name (named name value :: os) = Numeral.read? value := by
  simp [number?]

@[simp] theorem number?_named_of_ne (h : name' ≠ name) :
    number? name (named name' value :: os) = number? name os := by
  simp [number?, h]

@[simp] theorem number?_nil : number? name [] = none := rfl

@[simp] theorem positionals_plain :
    positionals (plain value :: os) = value :: positionals os := by
  simp [positionals, plain]

end FilterOption

namespace Filter

open FilterOption

/-- The size that a stream is filled up to: the first two options. -/
def paddedSize? (os : List FilterOption) : Option String :=
  match positionals os with
  | width :: height :: _ => some (width ++ "x" ++ height)
  | _ => none

/-- The length that a stream is cut to: it is given, or is what lies between two times. -/
def cutLength? (os : List FilterOption) : Option ℚ :=
  match number? "duration" os, number? "start" os, number? "end" os with
  | some length, _, _ => some length
  | none, some start, some stop => some (stop - start)
  | _, _, _ => none

/-- The filters that change neither the size nor the rate nor the length of a stream. -/
def transparent : List String := ["format", "setpts", "overlay", "drawtext", "drawbox"]

/-- What a filter makes of a stream.  Of what other filters make nothing is known. -/
def footage (f : Filter) (x : Footage) : Footage :=
  match f with
  | .call name os =>
    if name = "color" then ⟨value? "s" os, value? "r" os, number? "d" os⟩
    else if name = "scale" then { x with size? := none }
    else if name = "loop" then { x with length? := none }
    else if name = "pad" then { x with size? := paddedSize? os }
    else if name = "fps" then { x with rate? := (positionals os).head? }
    else if name = "trim" then { x with length? := cutLength? os }
    else if name = "xfade" then { x with length? := none }
    else if name ∈ transparent then x
    else {}
  | .literal _ => {}

variable {x : Footage} {os : List FilterOption} {name : String}

@[simp] theorem footage_color :
    (call "color" os).footage x = ⟨value? "s" os, value? "r" os, number? "d" os⟩ := rfl

@[simp] theorem footage_scale : (call "scale" os).footage x = { x with size? := none } := rfl

@[simp] theorem footage_loop : (call "loop" os).footage x = { x with length? := none } := rfl

@[simp] theorem footage_pad : (call "pad" os).footage x = { x with size? := paddedSize? os } := rfl

@[simp] theorem footage_fps :
    (call "fps" os).footage x = { x with rate? := (positionals os).head? } := rfl

@[simp] theorem footage_trim : (call "trim" os).footage x = { x with length? := cutLength? os } :=
  rfl

@[simp] theorem footage_xfade : (call "xfade" os).footage x = { x with length? := none } := rfl

theorem footage_of_transparent (h : name ∈ transparent) : (call name os).footage x = x := by
  simp only [transparent, List.mem_cons, List.not_mem_nil, or_false] at h
  rcases h with rfl | rfl | rfl | rfl | rfl <;> rfl

end Filter

/-! ## statements -/

/-- The stream that a statement writes. -/
def Node.footage (known : Pad → Footage) (n : Node) : Footage :=
  n.filters.foldl (fun x f => f.footage x) (n.inputs.head?.elim {} known)

/-- A filter that changes nothing lets its first stream through. -/
theorem Node.footage_of_transparent {known : Pad → Footage} {p out : Pad} {rest : List Pad}
    {name : String} {os : List FilterOption} (h : name ∈ Filter.transparent) :
    Node.footage known ⟨p :: rest, [.call name os], out⟩ = known p :=
  Filter.footage_of_transparent h

/-- What is known of all pads after some statements. -/
def footageAfter (known : Pad → Footage) : List Node → Pad → Footage
  | [] => known
  | n :: rest => footageAfter (Function.update known n.output (n.footage known)) rest

section

variable {known : Pad → Footage} {xs ys : List Node} {n : Node} {p : Pad}

@[simp] theorem footageAfter_nil : footageAfter known [] = known := rfl

theorem footageAfter_cons : footageAfter known (n :: xs)
    = footageAfter (Function.update known n.output (n.footage known)) xs := rfl

theorem footageAfter_append :
    footageAfter known (xs ++ ys) = footageAfter (footageAfter known xs) ys := by
  induction xs generalizing known with
  | nil => rfl
  | cons n xs ih => exact ih

/-- What is known of a pad stays as it is while other pads are written. -/
theorem footageAfter_of_notMem (h : p ∉ xs.map Node.output) :
    footageAfter known xs p = known p := by
  induction xs generalizing known with
  | nil => rfl
  | cons n xs ih =>
    rw [List.map_cons, List.mem_cons, not_or] at h
    rw [footageAfter_cons, ih h.2, Function.update_of_ne h.1]

end

/-- What is known of the pads is what the statements make of them, all at once. -/
def Explains (known : Pad → Footage) (nodes : List Node) : Prop :=
  ∀ n ∈ nodes, known n.output = n.footage known

/-- What is known of the pads of a graph; of the streams of files it is nothing. -/
def Graph.footage (g : Graph) : Pad → Footage := footageAfter (fun _ => {}) g.nodes

/-- If no pad is written twice, and none after it is read, what is known of the pads in the end
explains the statements. -/
theorem Graph.explains_footage {g : Graph} (hnodup : (g.nodes.map Node.output).Nodup)
    (hread : ∀ before n after, g.nodes = before ++ n :: after → ∀ p ∈ n.inputs,
      p ∉ n.output :: after.map Node.output) : Explains g.footage g.nodes := by
  intro n hn
  obtain ⟨before, after, hsplit⟩ := List.append_of_mem hn
  rw [hsplit, List.map_append, List.map_cons, List.nodup_append, List.nodup_cons] at hnodup
  obtain ⟨-, ⟨hafter, -⟩, -⟩ := hnodup
  have hinput (p : Pad) (hp : p ∈ n.inputs) :
      footageAfter (fun _ => {}) before p = g.footage p := by
    have hwritten : p ∉ (n :: after).map Node.output := hread before n after hsplit p hp
    rw [footage, hsplit, footageAfter_append, footageAfter_of_notMem hwritten]
  have hhead : n.inputs.head?.elim {} (footageAfter (fun _ => {}) before)
      = n.inputs.head?.elim {} g.footage := by
    cases hinputs : n.inputs with
    | nil => rfl
    | cons p rest => exact hinput p (by simp [hinputs])
  calc g.footage n.output = n.footage (footageAfter (fun _ => {}) before) := by
        rw [footage, hsplit, footageAfter_append, footageAfter_cons, footageAfter_of_notMem hafter,
          Function.update_self]
    _ = n.footage g.footage := by rw [Node.footage, hhead, Node.footage]

end Storyboard
