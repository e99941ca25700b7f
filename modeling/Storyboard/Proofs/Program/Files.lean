import Mathlib.Data.List.Basic
import Storyboard.Proofs.Result
import Storyboard.Workspace

/-!
# Storyboard.Proofs.Program.Files

What an action does to the files of a workspace.  A path has one place, whatever files and folders
there are on the way to it; what is written by the path is written there, if it is written at all.
`Keeps x w place` says that the action `x`, started in the workspace `w`, leaves the file at the
place as it was, whether or not the action fails; `Spares x w place lost` says so of a failure only,
and has room for a failure for half of a surrogate pair, which leaves something `lost`.

* `Workspace.place_of_locate` — where a path leads;
* `Keeps.bind`, `Spares.of_keeps_bind`, `Spares.bind`, `Loses.bind` — one action after another;
* `result_say`, `result_note` — a line that is printed;
* `keeps_write`, `write_forms`, `write_of_takes` — a file that is written.
-/

namespace Storyboard

instance : DecidableEq Content
  | .text s, .text s' => decidable_of_iff (s = s') (by simp)
  | .raw bytes n, .raw bytes' n' =>
    decidable_of_iff (bytes.data = bytes'.data ∧ n = n') (by simp [ByteArray.ext_iff])
  | .picture w h color, .picture w' h' color' =>
    decidable_of_iff (w = w' ∧ h = h' ∧ color = color') (by simp)
  | .text _, .raw _ _ | .text _, .picture _ _ _ | .raw _ _, .text _ | .raw _ _, .picture _ _ _
  | .picture _ _ _, .text _ | .picture _ _ _, .raw _ _ => .isFalse nofun

variable {α β : Type}

/-! ## line ends -/

namespace Content

theorem unixLines_cons {c : Char} (h : c ≠ '\r') (cs : List Char) :
    unixLines (c :: cs) = c :: unixLines cs := by
  rw [unixLines]
  · exact fun _ hc _ => h hc
  · exact h

theorem unixLines_carriageReturn {cs : List Char} (h : ∀ more, cs ≠ '\n' :: more) :
    unixLines ('\r' :: cs) = '\n' :: unixLines cs := by
  rw [unixLines]
  exact h

theorem unixLines_append_of_notMem {cs : List Char} (h : ∀ c ∈ cs, c ≠ '\r') (rest : List Char) :
    unixLines (cs ++ rest) = cs ++ unixLines rest := by
  induction cs with
  | nil => rfl
  | cons c cs ih =>
    rw [List.cons_append, unixLines_cons (h c List.mem_cons_self),
      ih fun c hc => h c (List.mem_cons_of_mem _ hc), List.cons_append]

end Content

/-! ## places -/

namespace Workspace

/-- The place of a path. -/
def place (w : Workspace) (path : String) : Parts :=
  ((Path.parts path).foldl Path.step (w.origin path).reverse).reverse

variable {w after : Workspace} {start place : Parts} {path part : String} {parts : List String}

theorem place_of_folder (h : after.folder = w.folder) (path : String) :
    after.place path = w.place path := by
  simp only [Workspace.place, origin, h]

theorem step_of_enter (h : w.enter start part = .ok place) :
    place.reverse = Path.step start.reverse part := by
  unfold enter at h
  unfold Path.step
  split at h
  · next hstay =>
    rw [if_pos hstay, Except.ok.inj h]
  · next hmoves =>
    rw [if_neg hmoves]
    split at h
    · next hup =>
      rw [if_pos hup, ← Except.ok.inj h, List.tail_reverse]
    · next hdown =>
      rw [if_neg hdown]
      split at h
      · rw [← Except.ok.inj h, List.reverse_concat]
      · split at h <;> cases h

theorem foldl_step_of_enter (h : parts.foldlM w.enter start = .ok place) :
    place.reverse = parts.foldl Path.step start.reverse := by
  induction parts generalizing start with
  | nil => rw [List.foldl_nil, pure_eq_ok.1 h]
  | cons part parts ih =>
    obtain ⟨next, hnext, h⟩ := bind_eq_ok.1 h
    rw [List.foldl_cons, ← step_of_enter hnext, ih h]

/-- What a path leads to is at the place of the path. -/
theorem place_of_locate (h : w.locate path = .ok place) : place = w.place path := by
  unfold locate at h
  obtain ⟨-, -, h⟩ := bind_eq_ok.1 h
  obtain ⟨above, habove, h⟩ := bind_eq_ok.1 h
  have hfront := foldl_step_of_enter habove
  split at h
  · next last hlast =>
    have hparts : Path.parts path = (Path.parts path).dropLast ++ [last] :=
      (List.dropLast_append_getLast? last hlast).symm
    rw [pure_eq_ok.1 h, Workspace.place, hparts, List.foldl_append, hfront]
    simp
  · next hnone =>
    rw [List.getLast?_eq_none_iff] at hnone
    rw [pure_eq_ok.1 h, Workspace.place, ← List.reverse_inj, hfront, hnone]
    simp

/-- Workspaces in which a path leads to the same place, and the same notes are printed. -/
structure Alike (w after : Workspace) : Prop where
  folder : after.folder = w.folder
  quiet : after.quiet = w.quiet

theorem Alike.trans {later : Workspace} (h : w.Alike after) (h' : after.Alike later) :
    w.Alike later := ⟨h'.folder.trans h.folder, h'.quiet.trans h.quiet⟩

/-- A workspace that came from another one without a change to the file at a place. -/
structure SameAt (w after : Workspace) (place : Parts) : Prop extends w.Alike after where
  file : after.get? place = w.get? place

theorem SameAt.trans {later : Workspace} (h : w.SameAt after place)
    (h' : after.SameAt later place) : w.SameAt later place :=
  ⟨h.toAlike.trans h'.toAlike, h'.file.trans h.file⟩

/-- Whether a file can be saved by a path: the way to it is there, and it is no folder. -/
def Takes (w : Workspace) (path : String) : Prop :=
  ∃ place, w.locate path = .ok place ∧ w.isFolder place = false

end Workspace

/-! ## what an action does to a file -/

namespace Action

/-- What becomes of an action in a workspace. -/
def result (x : Action α) (w : Workspace) : Except Fault α := (x.run.run w).1

/-- The workspace that an action leaves. -/
def after (x : Action α) (w : Workspace) : Workspace := (x.run.run w).2

/-- An action leaves the file at a place as it was. -/
def Keeps (x : Action α) (w : Workspace) (place : Parts) : Prop := w.SameAt (x.after w) place

/-- An action that leaves all files as they were, wherever it is started. -/
def Harmless (x : Action α) : Prop := ∀ w place, x.Keeps w place

/-- If an action fails, it fails for half of a surrogate pair, and leaves something lost at a
place. -/
def Loses (x : Action α) (w : Workspace) (place : Parts) (lost : Content → Prop) : Prop :=
  ∀ f, x.result w = .error f →
    f = .surrogateUnpaired ∧ ∃ content, (x.after w).get? place = some content ∧ lost content

/-- If an action fails, it leaves the file at a place as it was; or it fails for half of a surrogate
pair, and leaves something lost there. -/
def Spares (x : Action α) (w : Workspace) (place : Parts) (lost : Content → Prop) : Prop :=
  ∀ f, x.result w = .error f → (x.after w).get? place = w.get? place ∨
    f = .surrogateUnpaired ∧ ∃ content, (x.after w).get? place = some content ∧ lost content

variable {x : Action α} {f : α → Action β} {w : Workspace} {place : Parts} {path line : String}
  {a : α} {e : Fault} {lost : Content → Prop}

/-! ### one action after another -/

theorem run_bind_of_ok {v : Workspace} (h : x.run.run w = (.ok a, v)) :
    (x >>= f).run.run w = (f a).run.run v := by
  simp only [ExceptT.run_bind, StateT.run_bind, h]
  rfl

theorem run_bind_of_error {v : Workspace} (h : x.run.run w = (.error e, v)) :
    (x >>= f).run.run w = (.error e, v) := by
  simp only [ExceptT.run_bind, StateT.run_bind, h]
  rfl

theorem run_of_result {r : Except Fault α} (h : x.result w = r) : x.run.run w = (r, x.after w) :=
  Prod.ext h rfl

theorem result_of_run {r : Except Fault α} {v : Workspace} (h : x.run.run w = (r, v)) :
    x.result w = r := congrArg Prod.fst h

/-- After an action that succeeds, it is up to the next one. -/
theorem bind_of_ok (h : x.result w = .ok a) :
    (x >>= f).result w = (f a).result (x.after w) ∧ (x >>= f).after w = (f a).after (x.after w) :=
  Prod.ext_iff.1 (run_bind_of_ok (run_of_result h))

/-- After one that fails, there is none. -/
theorem bind_of_error (h : x.result w = .error e) :
    (x >>= f).result w = .error e ∧ (x >>= f).after w = x.after w :=
  Prod.ext_iff.1 (run_bind_of_error (run_of_result h))

/-- An action after another succeeds if both do. -/
theorem result_bind_eq_ok {b : β} :
    (x >>= f).result w = .ok b ↔ ∃ a, x.result w = .ok a ∧ (f a).result (x.after w) = .ok b := by
  constructor
  · intro h
    cases hresult : x.result w with
    | error e => cases (bind_of_error hresult).1.symm.trans h
    | ok a => exact ⟨a, rfl, (bind_of_ok hresult).1.symm.trans h⟩
  · rintro ⟨a, ha, hb⟩
    exact (bind_of_ok ha).1.trans hb

theorem run_get_bind (f : Workspace → Action β) (w : Workspace) :
    (get >>= f).run.run w = (f w).run.run w := rfl

theorem run_lift_bind (x : Except Fault α) (f : α → Action β) (w : Workspace) :
    (liftM x >>= f).run.run w = match x with
      | .ok a => (f a).run.run w
      | .error e => (.error e, w) := by
  cases x <;> rfl

@[simp] theorem result_lift (x : Except Fault α) : (liftM x : Action α).result w = x := by
  cases x <;> rfl

@[simp] theorem after_lift (x : Except Fault α) (w : Workspace) :
    (liftM x : Action α).after w = w := by
  cases x <;> rfl

theorem lift_ok_bind (a : α) (f : α → Action β) :
    (liftM (Except.ok a : Except Fault α) >>= f) = f a := rfl

/-- If the first action keeps a file, it is up to the second one, if it comes to that. -/
theorem Keeps.bind (hx : x.Keeps w place) (hf : ∀ a, x.result w = .ok a → w.Alike (x.after w) →
    (f a).Keeps (x.after w) place) : (x >>= f).Keeps w place := by
  cases hresult : x.result w with
  | error e => rwa [Keeps, (bind_of_error hresult).2]
  | ok a =>
    rw [Keeps, (bind_of_ok hresult).2]
    exact hx.trans (hf a hresult hx.toAlike)

theorem Harmless.bind (hx : x.Harmless) (hf : ∀ a, (f a).Harmless) : (x >>= f).Harmless :=
  fun w place => (hx w place).bind fun a _ _ => hf a _ place

theorem Spares.bind (hx : x.Spares w place lost)
    (hf : ∀ a, x.result w = .ok a → (f a).Loses (x.after w) place lost) :
    (x >>= f).Spares w place lost := by
  intro e h
  cases hresult : x.result w with
  | error e' =>
    obtain rfl := Except.error.inj ((bind_of_error hresult).1.symm.trans h)
    rw [(bind_of_error hresult).2]
    exact hx e' hresult
  | ok a =>
    rw [(bind_of_ok hresult).1] at h
    rw [(bind_of_ok hresult).2]
    exact .inr (hf a hresult e h)

theorem Loses.bind (hx : x.Loses w place lost)
    (hf : ∀ a, x.result w = .ok a → (f a).Loses (x.after w) place lost) :
    (x >>= f).Loses w place lost := by
  intro e h
  cases hresult : x.result w with
  | error e' =>
    obtain rfl := Except.error.inj ((bind_of_error hresult).1.symm.trans h)
    rw [(bind_of_error hresult).2]
    exact hx e' hresult
  | ok a =>
    rw [(bind_of_ok hresult).1] at h
    rw [(bind_of_ok hresult).2]
    exact hf a hresult e h

theorem harmless_pure (a : α) : Harmless (pure a) := fun _ _ => ⟨⟨rfl, rfl⟩, rfl⟩

theorem harmless_throw (e : Fault) : Harmless (throw e : Action α) := fun _ _ => ⟨⟨rfl, rfl⟩, rfl⟩

theorem harmless_lift (x : Except Fault α) : Harmless (liftM x) := by
  cases x <;> exact fun _ _ => ⟨⟨rfl, rfl⟩, rfl⟩

theorem harmless_get : Harmless (get : Action Workspace) := fun _ _ => ⟨⟨rfl, rfl⟩, rfl⟩

/-! ### lines -/

theorem run_say (line : String) (w : Workspace) :
    (say line).run.run w = if Text.hasHalf line then (.error .surrogateUnpaired, w)
      else (.ok (), { w with printed := w.printed ++ [line] }) := by
  unfold say
  split <;> rfl

theorem harmless_say (line : String) : Harmless (say line) := by
  unfold say
  split
  · exact harmless_throw _
  · exact fun _ _ => ⟨⟨rfl, rfl⟩, rfl⟩

theorem harmless_note (line : String) : Harmless (note line) := by
  refine harmless_get.bind fun w => ?_
  split
  · exact harmless_pure ()
  · exact harmless_say line

theorem run_note (line : String) (w : Workspace) :
    (note line).run.run w = if w.quiet then (.ok (), w) else (say line).run.run w := by
  rw [note, run_get_bind]
  split <;> rfl

/-- A note is printed if it can be, or not at all if the workspace is quiet. -/
theorem result_note : (note line).result w = .ok () ↔ w.quiet = true ∨ Text.hasHalf line = false := by
  rw [result, run_note, run_say]
  cases w.quiet <;> cases Text.hasHalf line <;> simp

/-- What comes after a note comes about only if the note is printed where it has to be. -/
theorem result_note_pure (a : α) : (note line >>= fun _ => pure a).result w =
    if w.quiet || !Text.hasHalf line then .ok a else .error .surrogateUnpaired := by
  simp only [result, ExceptT.run_bind, StateT.run_bind, run_note, run_say]
  cases w.quiet <;> cases Text.hasHalf line <;> rfl

/-- A note changes nothing but what is printed. -/
theorem run_note_of_ok (h : (note line).result w = .ok ()) :
    ∃ printed, (note line).run.run w = (.ok (), { w with printed := printed }) := by
  rw [result_note] at h
  rw [run_note, run_say]
  split
  · exact ⟨w.printed, rfl⟩
  · next hquiet => exact ⟨w.printed ++ [line], if_neg (by simpa [hquiet] using h)⟩

/-- To read a file changes nothing. -/
theorem run_content (path : String) (w : Workspace) :
    (content path).run.run w = ((content path).result w, w) := by
  simp only [result]
  rw [content, run_get_bind, run_lift_bind]
  cases w.locate path with
  | error e => rfl
  | ok place =>
    dsimp only
    split <;> rfl

/-- What is read is the file that the path leads to. -/
theorem content_eq_ok {c : Content} : (content path).result w = .ok c ↔
    ∃ place, w.locate path = .ok place ∧ w.get? place = some c := by
  simp only [result]
  rw [content, run_get_bind, run_lift_bind]
  cases w.locate path with
  | error e => simp
  | ok place =>
    simp only [Except.ok.injEq, exists_eq_left']
    cases w.get? place with
    | none => constructor <;> rintro ⟨⟩
    | some c' =>
      constructor
      · exact fun h => congrArg some (Except.ok.inj h)
      · exact fun h => congrArg Except.ok (Option.some.inj h)

theorem isFile_of_content {c : Content} (h : (content path).result w = .ok c) :
    w.isFile path = true := by
  obtain ⟨place, hlocate, hfile⟩ := content_eq_ok.1 h
  rw [Workspace.isFile, hlocate]
  exact Option.isSome_of_eq_some hfile

/-- A file is written at the place of its path, or nothing is. -/
theorem write_forms (path : String) (content : Content) (w : Workspace) :
    (∃ e, (write path content).result w = .error e) ∧ (write path content).after w = w ∨
      (write path content).result w = .ok () ∧
        (write path content).after w = w.put (w.place path) content := by
  simp only [result, after]
  rw [write, run_get_bind, run_lift_bind]
  cases hlocate : w.locate path with
  | error e => exact .inl ⟨⟨e, rfl⟩, rfl⟩
  | ok place =>
    obtain rfl := Workspace.place_of_locate hlocate
    dsimp only
    split
    · exact .inl ⟨⟨.fileIsFolder, rfl⟩, rfl⟩
    · exact .inr ⟨rfl, rfl⟩

/-- A file is written if it can be saved. -/
theorem write_of_takes (h : w.Takes path) (content : Content) :
    (write path content).result w = .ok () ∧
      (write path content).after w = w.put (w.place path) content := by
  obtain ⟨place, hplace, hfolder⟩ := h
  obtain rfl := Workspace.place_of_locate hplace
  simp only [result, after]
  rw [write, run_get_bind, run_lift_bind, hplace]
  simp only [hfolder]
  exact ⟨rfl, rfl⟩

/-- It is not written unless it can be. -/
theorem takes_of_write {content : Content} (h : (write path content).result w = .ok ()) :
    w.Takes path := by
  simp only [result] at h
  rw [write, run_get_bind, run_lift_bind] at h
  cases hlocate : w.locate path with
  | error e => simp [hlocate] at h
  | ok place =>
    simp only [hlocate] at h
    split at h
    · cases h
    · next hfolder => exact ⟨place, hlocate, by simpa using hfolder⟩

theorem keeps_write {content : Content} (h : place ≠ w.place path) :
    (write path content).Keeps w place := by
  obtain ⟨-, hafter⟩ | ⟨-, hafter⟩ := write_forms path content w
  · rw [Keeps, hafter]
    exact ⟨⟨rfl, rfl⟩, rfl⟩
  · rw [Keeps, hafter]
    exact ⟨⟨rfl, rfl⟩, w.get?_put_of_ne h content⟩

/-- A file that was written is there. -/
theorem get?_after_write {content : Content} (h : (write path content).result w = .ok ()) :
    w.Alike ((write path content).after w) ∧
      ((write path content).after w).get? (w.place path) = some content := by
  obtain ⟨⟨e, herror⟩, -⟩ | ⟨-, hafter⟩ := write_forms path content w
  · cases herror.symm.trans h
  · rw [hafter]
    exact ⟨⟨rfl, rfl⟩, w.get?_put_self _ _⟩

end Action

end Storyboard
