import Storyboard.Graph.Escape

/-!
# Storyboard.Proofs.Graph.Scan

How the engine reads protected text.  A backslash protects the next character, and a single
quote protects everything up to the next single quote; `scan` says of each character whether
it stands bare, is protected, or is one that protects.  A text is *closed* if nothing is
left open at its end, so that it may be put beside other text:

* `scan_append` — what follows is read from where the text before leaves off;
* `scan_raw_of_append` — marks that are cut out at a bare character are the marks of what
  they stand for.
-/

namespace Storyboard.Graph

/-! ## marks -/

/-- What a character is in protected text. -/
inductive Role
  /-- It stands for itself and may be a separator. -/
  | bare
  /-- It is protected and stands for itself only. -/
  | kept
  /-- It protects what follows and does not belong to the text. -/
  | guard
  deriving DecidableEq, Repr

/-- A character and what it is. -/
structure Mark where
  char : Char
  role : Role
  deriving DecidableEq, Repr

/-- Where a reader of protected text is. -/
inductive Reading
  | plain
  | quoted
  | escaped
  deriving DecidableEq, Repr

/-- What a character is, for a reader. -/
def Reading.role : Reading → Char → Role
  | .plain, c => if c = '\'' ∨ c = '\\' then .guard else .bare
  | .quoted, c => if c = '\'' then .guard else .kept
  | .escaped, _ => .kept

/-- Where a character takes a reader. -/
def Reading.next : Reading → Char → Reading
  | .plain, c => if c = '\'' then .quoted else if c = '\\' then .escaped else .plain
  | .quoted, c => if c = '\'' then .plain else .quoted
  | .escaped, _ => .plain

/-- The marks of a text. -/
def scan : Reading → List Char → List Mark
  | _, [] => []
  | r, c :: cs => ⟨c, r.role c⟩ :: scan (r.next c) cs

/-- Where a text takes a reader. -/
def after (r : Reading) (cs : List Char) : Reading := cs.foldl Reading.next r

/-- The text that marks are of. -/
def raw (ms : List Mark) : List Char := ms.map Mark.char

/-- What marks stand for. -/
def decoded (ms : List Mark) : List Char :=
  raw (ms.filter fun m => m.role ≠ .guard)

/-! ## scanning -/

variable {r : Reading} {c : Char} {cs ds : List Char} {p q : List Mark}

@[simp] theorem scan_nil : scan r [] = [] := by
  rw [scan]

@[simp] theorem scan_cons : scan r (c :: cs) = ⟨c, r.role c⟩ :: scan (r.next c) cs := by
  rw [scan]

@[simp] theorem after_nil : after r [] = r := rfl

@[simp] theorem after_cons : after r (c :: cs) = after (r.next c) cs := rfl

theorem after_append : after r (cs ++ ds) = after (after r cs) ds := by
  simp [after]

theorem scan_append : scan r (cs ++ ds) = scan r cs ++ scan (after r cs) ds := by
  induction cs generalizing r with
  | nil => rfl
  | cons c cs ih => rw [List.cons_append, scan_cons, scan_cons, ih, after_cons, List.cons_append]

@[simp] theorem length_scan : (scan r cs).length = cs.length := by
  induction cs generalizing r with
  | nil => rfl
  | cons c cs ih => rw [scan_cons, List.length_cons, List.length_cons, ih]

@[simp] theorem raw_nil : raw [] = [] := rfl

@[simp] theorem raw_append : raw (p ++ q) = raw p ++ raw q := by
  simp [raw]

@[simp] theorem raw_scan : raw (scan r cs) = cs := by
  induction cs generalizing r with
  | nil => rfl
  | cons c cs ih =>
    have htail : raw (scan (r.next c) cs) = cs := ih
    rw [scan_cons, raw, List.map_cons]
    exact congrArg (c :: ·) htail

@[simp] theorem decoded_nil : decoded [] = [] := rfl

theorem decoded_append : decoded (p ++ q) = decoded p ++ decoded q := by
  simp [decoded]

/-- A character that stands bare is met by a reader in plain text, who goes on in plain text. -/
theorem next_of_role_eq_bare (h : r.role c = .bare) : r.next c = .plain := by
  cases r with
  | plain =>
    by_cases hc : c = '\'' ∨ c = '\\'
    · simp [Reading.role, hc] at h
    · have hne : c ≠ '\'' ∧ c ≠ '\\' := not_or.1 hc
      simp [Reading.next, hne]
  | quoted =>
    by_cases hc : c = '\''
    · simp [Reading.role, hc] at h
    · simp [Reading.role, hc] at h
  | escaped => simp [Reading.role] at h

/-- Marks before and after a bare character are the marks of what they stand for. -/
theorem scan_raw_of_append (h : scan r (raw (p ++ ⟨c, .bare⟩ :: q)) = p ++ ⟨c, .bare⟩ :: q) :
    scan r (raw p) = p ∧ scan .plain (raw q) = q := by
  have hraw : raw (p ++ ⟨c, .bare⟩ :: q) = raw p ++ c :: raw q := by simp [raw]
  rw [hraw, scan_append] at h
  have hlength : (scan r (raw p)).length = p.length := by simp [raw]
  obtain ⟨hp, hq⟩ := List.append_inj h hlength
  rw [scan_cons] at hq
  obtain ⟨hmark, htail⟩ := List.cons.inj hq
  have hrole : (after r (raw p)).role c = .bare := congrArg Mark.role hmark
  rw [next_of_role_eq_bare hrole] at htail
  exact ⟨hp, htail⟩

/-! ## closed text -/

/-- A text that leaves nothing open. -/
def IsClosed (cs : List Char) : Prop := after .plain cs = .plain

instance (cs : List Char) : Decidable (IsClosed cs) := inferInstanceAs (Decidable (_ = _))

theorem IsClosed.append (hc : IsClosed cs) (hd : IsClosed ds) : IsClosed (cs ++ ds) := by
  rw [IsClosed, after_append, hc, hd]

theorem IsClosed.scan_append (h : IsClosed cs) :
    scan .plain (cs ++ ds) = scan .plain cs ++ scan .plain ds := by
  rw [Graph.scan_append, h]

end Storyboard.Graph
