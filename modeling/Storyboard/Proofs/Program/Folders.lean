import Storyboard.Proofs.Program.Files

/-!
# Storyboard.Proofs.Program.Folders

What is done a second time.  No folder is ever taken away, so a way through folders that could be
walked once can be walked again: to make folders that are there changes nothing, and a file that was
saved by a path can be saved by it again.  To write what a file holds changes nothing either.

* `Workspace.Grows` — a workspace in which every folder is still there;
* `Action.walks_of_makeFolders`, `Action.makeFolders_of_walks` — folders that are made twice;
* `Workspace.Takes.put`, `Workspace.put_of_get?` — a file that is written twice.
-/

namespace Storyboard

open Action

/-! ## folders stay -/

namespace Workspace

/-- A workspace that came from another one, in which every folder is still there. -/
structure Grows (w later : Workspace) : Prop where
  folder : later.folder = w.folder
  isFolder : ∀ place, w.isFolder place = true → later.isFolder place = true

variable {w later : Workspace} {start place : Parts} {path part : String} {parts : List String}
  {content : Content}

theorem Grows.refl (w : Workspace) : w.Grows w := ⟨rfl, fun _ => id⟩

theorem Grows.trans {last : Workspace} (h : w.Grows later) (h' : later.Grows last) : w.Grows last :=
  ⟨h'.folder.trans h.folder, fun place hplace => h'.isFolder place (h.isFolder place hplace)⟩

theorem Grows.enter (h : w.Grows later) (henter : w.enter start part = .ok place) :
    later.enter start part = .ok place := by
  unfold Workspace.enter at henter ⊢
  split
  · next hstay => rwa [if_pos hstay] at henter
  · next hmoves =>
    rw [if_neg hmoves] at henter
    split
    · next hup => rwa [if_pos hup] at henter
    · next hdown =>
      rw [if_neg hdown] at henter
      split at henter
      · next hfolder => rwa [if_pos (h.isFolder _ hfolder)]
      · split at henter <;> cases henter

theorem Grows.foldlM_enter (h : w.Grows later) (henter : parts.foldlM w.enter start = .ok place) :
    parts.foldlM later.enter start = .ok place := by
  induction parts generalizing start with
  | nil => exact henter
  | cons part parts ih =>
    obtain ⟨next, hnext, henter⟩ := bind_eq_ok.1 henter
    exact bind_eq_ok.2 ⟨next, h.enter hnext, ih henter⟩

theorem Grows.origin (h : w.Grows later) (path : String) : later.origin path = w.origin path := by
  rw [Workspace.origin, Workspace.origin, h.folder]

theorem Grows.locate (h : w.Grows later) (hlocate : w.locate path = .ok place) :
    later.locate path = .ok place := by
  unfold Workspace.locate at hlocate ⊢
  obtain ⟨_, hname, hlocate⟩ := bind_eq_ok.1 hlocate
  obtain ⟨above, habove, hlast⟩ := bind_eq_ok.1 hlocate
  rw [← h.origin path] at habove
  exact bind_eq_ok.2 ⟨_, hname, bind_eq_ok.2 ⟨above, h.foldlM_enter habove, hlast⟩⟩

/-! ### files that are put -/

theorem any_putFile (p : Parts → Bool) (place : Parts) (content : Content)
    (files : List (Parts × Content)) :
    (putFile place content files).any (fun f => p f.1) =
      (files.any (fun f => p f.1) || p place) := by
  induction files with
  | nil => simp [putFile]
  | cons f files ih =>
    rw [putFile]
    split
    · next hplace =>
      rw [List.any_cons, List.any_cons, hplace]
      cases p place <;> simp
    · rw [List.any_cons, List.any_cons, ih, Bool.or_assoc]

/-- A file that is put makes folders of the places above it, and of no other. -/
theorem isFolder_put (w : Workspace) (place other : Parts) (content : Content) :
    (w.put place content).isFolder other =
      (w.isFolder other || other.isPrefixOf place && other != place) := by
  simp only [isFolder, put, any_putFile fun f => other.isPrefixOf f && other != f, Bool.or_assoc]

theorem grows_put (w : Workspace) (place : Parts) (content : Content) :
    w.Grows (w.put place content) := by
  refine ⟨rfl, fun other hother => ?_⟩
  rw [isFolder_put, hother, Bool.true_or]

/-- A file that was saved by a path can be saved by it again. -/
theorem Takes.put (h : w.Takes path) (content : Content) :
    (w.put (w.place path) content).Takes path := by
  obtain ⟨place, hlocate, hfolder⟩ := h
  obtain rfl := place_of_locate hlocate
  refine ⟨_, (grows_put w _ content).locate hlocate, ?_⟩
  rw [isFolder_put, hfolder, bne_self_eq_false, Bool.and_false, Bool.or_false]

theorem putFile_of_lookup {files : List (Parts × Content)}
    (h : files.lookup place = some content) : putFile place content files = files := by
  induction files with
  | nil => cases h
  | cons f files ih =>
    obtain ⟨p, c⟩ := f
    rw [putFile]
    rw [List.lookup_cons] at h
    split
    · next hplace =>
      rw [hplace, beq_self_eq_true] at h
      obtain rfl := Option.some.inj h
      rfl
    · next hplace =>
      rw [beq_eq_false_iff_ne.2 (Ne.symm hplace)] at h
      rw [ih h]

/-- To put what is there changes nothing. -/
theorem put_of_get? (h : w.get? place = some content) : w.put place content = w := by
  rw [put, putFile_of_lookup h]

/-! ### folders that are made -/

/-- The workspace with a folder at a place. -/
def withFolder (w : Workspace) (place : Parts) : Workspace :=
  { w with folders := w.folders ++ [place] }

theorem isFolder_withFolder (w : Workspace) (place other : Parts) :
    (w.withFolder place).isFolder other = (w.isFolder other || other.isPrefixOf place) := by
  simp only [isFolder, withFolder, List.any_append, List.any_cons, List.any_nil, Bool.or_false,
    Bool.or_assoc]
  congr 2
  exact Bool.or_comm _ _

theorem grows_withFolder (w : Workspace) (place : Parts) : w.Grows (w.withFolder place) := by
  refine ⟨rfl, fun other hother => ?_⟩
  rw [isFolder_withFolder, hother, Bool.true_or]

/-- A missing folder is not missing after it was made. -/
theorem enter_withFolder (h : w.enter start part = .error .fileMissing) :
    (w.withFolder (start ++ [part])).enter start part = .ok (start ++ [part]) := by
  have hself : (start ++ [part]).isPrefixOf (start ++ [part]) = true :=
    List.isPrefixOf_iff_prefix.2 List.prefix_rfl
  have hthere : (w.withFolder (start ++ [part])).isFolder (start ++ [part]) = true := by
    rw [isFolder_withFolder, hself, Bool.or_true]
  unfold enter at h ⊢
  split at h
  · cases h
  · next hmoves =>
    rw [if_neg hmoves]
    split at h
    · cases h
    · next hdown => rw [if_neg hdown, if_pos hthere]

/-- Whether the folders of a path are there. -/
def Walks (w : Workspace) (path : String) : Prop :=
  ∃ place, (Path.parts path).foldlM w.enter (w.origin path) = .ok place

theorem Walks.grow (h : w.Walks path) (hgrows : w.Grows later) : later.Walks path := by
  obtain ⟨place, hplace⟩ := h
  refine ⟨place, ?_⟩
  rw [hgrows.origin path]
  exact hgrows.foldlM_enter hplace

end Workspace

/-! ## folders are made -/

namespace Action

variable {w : Workspace} {start place : Parts} {path part : String} {parts : List String}

/-- A folder that is there is not made. -/
theorem makeFolder_of_enter (h : w.enter start part = .ok place) :
    (makeFolder start part).result w = .ok place ∧ (makeFolder start part).after w = w := by
  simp only [result, after]
  rw [makeFolder, run_get_bind, h]
  exact ⟨rfl, rfl⟩

/-- A folder is gone into, or it is made if it is missing; there may be a file in its place, or no
folder can have its name. -/
theorem makeFolder_forms (start : Parts) (part : String) (w : Workspace) :
    (∃ place, w.enter start part = .ok place ∧ (makeFolder start part).result w = .ok place ∧
        (makeFolder start part).after w = w) ∨
      (w.enter start part = .error .fileMissing ∧
        (makeFolder start part).result w = .ok (start ++ [part]) ∧
        (makeFolder start part).after w = w.withFolder (start ++ [part])) ∨
      ∃ e, (makeFolder start part).result w = .error e := by
  cases henter : w.enter start part with
  | ok place => exact .inl ⟨place, rfl, makeFolder_of_enter henter⟩
  | error e =>
    simp only [result, after]
    rw [makeFolder, run_get_bind, henter]
    split
    · next h => cases h
    · next h =>
      rw [run_lift_bind]
      cases Workspace.checkName part with
      | ok u => exact .inr (.inl ⟨h, rfl, rfl⟩)
      | error e' => exact .inr (.inr ⟨e', rfl⟩)
    · exact .inr (.inr ⟨_, rfl⟩)

/-- A folder that was made is there. -/
theorem enter_of_makeFolder (h : (makeFolder start part).result w = .ok place) :
    w.Grows ((makeFolder start part).after w) ∧
      ((makeFolder start part).after w).enter start part = .ok place := by
  obtain ⟨place', henter, hresult, hafter⟩ | ⟨hmissing, hresult, hafter⟩ | ⟨e, hresult⟩ :=
    makeFolder_forms start part w
  · obtain rfl := Except.ok.inj (hresult.symm.trans h)
    rw [hafter]
    exact ⟨.refl w, henter⟩
  · obtain rfl := Except.ok.inj (hresult.symm.trans h)
    rw [hafter]
    exact ⟨w.grows_withFolder _, Workspace.enter_withFolder hmissing⟩
  · cases hresult.symm.trans h

theorem foldlM_enter_of_makeFolder
    (h : (parts.foldlM makeFolder start).result w = .ok place) :
    w.Grows ((parts.foldlM makeFolder start).after w) ∧
      parts.foldlM ((parts.foldlM makeFolder start).after w).enter start = .ok place := by
  induction parts generalizing start w with
  | nil => exact ⟨.refl w, h⟩
  | cons part parts ih =>
    rw [List.foldlM_cons] at h ⊢
    obtain ⟨next, hnext, hrest⟩ := result_bind_eq_ok.1 h
    obtain ⟨hgrows, henter⟩ := enter_of_makeFolder hnext
    obtain ⟨hgrows', henter'⟩ := ih hrest
    rw [(bind_of_ok hnext).2, List.foldlM_cons]
    exact ⟨hgrows.trans hgrows', bind_eq_ok.2 ⟨next, hgrows'.enter henter, henter'⟩⟩

theorem makeFolder_of_foldlM_enter (h : parts.foldlM w.enter start = .ok place) :
    (parts.foldlM makeFolder start).result w = .ok place ∧
      (parts.foldlM makeFolder start).after w = w := by
  induction parts generalizing start with
  | nil => exact ⟨h, rfl⟩
  | cons part parts ih =>
    obtain ⟨next, hnext, hrest⟩ := bind_eq_ok.1 h
    obtain ⟨hresult, hafter⟩ := makeFolder_of_enter hnext
    obtain ⟨hresult', hafter'⟩ := ih hrest
    rw [List.foldlM_cons, (bind_of_ok hresult).1, (bind_of_ok hresult).2, hafter]
    exact ⟨hresult', hafter'⟩

/-- Folders are made one below the other. -/
theorem makeFolders_eq (path : String) (w : Workspace) :
    (makeFolders path).result w =
        (((Path.parts path).foldlM makeFolder (w.origin path)).result w).map (fun _ => ()) ∧
      (makeFolders path).after w =
        ((Path.parts path).foldlM makeFolder (w.origin path)).after w := by
  have hrun : (makeFolders path).run.run w =
      ((Path.parts path).foldlM makeFolder (w.origin path) >>= fun _ => pure ()).run.run w := rfl
  simp only [result, after, hrun]
  cases hresult : ((Path.parts path).foldlM makeFolder (w.origin path)).result w with
  | ok place =>
    obtain ⟨hok, hafter⟩ := bind_of_ok (f := fun _ => (pure () : Action Unit)) hresult
    exact ⟨hok.trans (congrArg (Except.map fun _ => ()) hresult).symm, hafter⟩
  | error e =>
    obtain ⟨herror, hafter⟩ := bind_of_error (f := fun _ => (pure () : Action Unit)) hresult
    exact ⟨herror.trans (congrArg (Except.map fun _ => ()) hresult).symm, hafter⟩

/-- Folders that were made are there. -/
theorem walks_of_makeFolders (h : (makeFolders path).result w = .ok ()) :
    w.Grows ((makeFolders path).after w) ∧ ((makeFolders path).after w).Walks path := by
  obtain ⟨hresult, hafter⟩ := makeFolders_eq path w
  rw [hafter]
  cases hfold : ((Path.parts path).foldlM makeFolder (w.origin path)).result w with
  | ok place =>
    obtain ⟨hgrows, henter⟩ := foldlM_enter_of_makeFolder hfold
    exact ⟨hgrows, place, by rwa [hgrows.origin path]⟩
  | error e =>
    rw [hfold] at hresult
    cases hresult.symm.trans h

/-- Folders that are there are not made. -/
theorem makeFolders_of_walks (h : w.Walks path) :
    (makeFolders path).result w = .ok () ∧ (makeFolders path).after w = w := by
  obtain ⟨place, hplace⟩ := h
  obtain ⟨hfold, hsame⟩ := makeFolder_of_foldlM_enter hplace
  obtain ⟨hresult, hafter⟩ := makeFolders_eq path w
  rw [hresult, hafter, hfold, hsame]
  exact ⟨rfl, rfl⟩

end Action

end Storyboard
