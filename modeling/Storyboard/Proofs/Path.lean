import Mathlib.Data.List.TakeWhile
import Storyboard.Path
import Storyboard.Proofs.Program.Files

/-!
# Storyboard.Proofs.Path

A file beside another one: its path is the other's with a mark in place of the extension.
Whatever the other's path is (without an extension, with dots in its folders, with nothing but
dots for a name, empty), the two are in one folder and are two files, also when it is not the
texts that are compared but the places that the paths have in a workspace.

* `exists_stem`           — what is kept of a path without its extension;
* `folderName_stem_append`, `stem_append_ne` — a path and one beside it;
* `extension_stem_append` — the extension that the mark brings;
* `Workspace.place_stem_append_ne` — the places of the two;
* `isBeside_stem_append`  — all of it.
-/

namespace Storyboard

namespace Path

variable {front name cs mark extension : List Char} {p : String}

/-! ## the folder and the last part -/

/-- What is left of a text after its first characters begins with none of them. -/
theorem dropWhile_forms (q : Char → Bool) (cs : List Char) :
    cs.dropWhile q = [] ∨ ∃ c rest, cs.dropWhile q = c :: rest ∧ q c = false := by
  cases h : cs.dropWhile q with
  | nil => exact .inl rfl
  | cons c rest =>
    have hhead := List.head?_dropWhile_not q cs
    rw [h] at hhead
    exact .inr ⟨c, rest, rfl, hhead⟩

/-- The part of a path before its last part is nothing or ends in a slash. -/
def IsFront (front : List Char) : Prop := front = [] ∨ ∃ above, front = above ++ ['/']

theorem isFront_folderPart (cs : List Char) : IsFront (folderPart cs) := by
  rw [folderPart]
  obtain h | ⟨c, above, h, hc⟩ := dropWhile_forms (· ≠ '/') cs.reverse
  · rw [h]
    exact .inl rfl
  · obtain rfl : c = '/' := by simpa using hc
    rw [h, List.reverse_cons]
    exact .inr ⟨_, rfl⟩

theorem slash_notMem_namePart (cs : List Char) : '/' ∉ namePart cs := by
  intro hmem
  have hslash := List.mem_takeWhile_imp (List.mem_reverse.1 hmem)
  exact absurd hslash (by decide)

/-- A front and a last part are the parts of the path that they make. -/
theorem folderPart_append (hfront : IsFront front) (hname : '/' ∉ name) :
    folderPart (front ++ name) = front ∧ namePart (front ++ name) = name := by
  have hkeep : ∀ c ∈ name.reverse, (decide (c ≠ '/')) = true := fun c hc =>
    decide_eq_true (ne_of_mem_of_not_mem (List.mem_reverse.1 hc) hname)
  rw [folderPart, namePart, List.reverse_append, List.dropWhile_append_of_pos hkeep,
    List.takeWhile_append_of_pos hkeep]
  obtain rfl | ⟨above, rfl⟩ := hfront <;> simp

/-! ## the extension -/

/-- A path without its extension keeps its folder and the start of its last part, up to a dot if
not all of it. -/
theorem exists_stem (p : String) : ∃ kept ending,
    namePart p.toList = kept ++ ending ∧ (ending = [] ∨ ∃ more, ending = '.' :: more) ∧
      (stem p).toList = folderPart p.toList ++ kept := by
  by_cases hdot : ((namePart p.toList).dropWhile (· = '.')).contains '.'
  · obtain h | ⟨c, kept, h, hc⟩ :=
      dropWhile_forms (· ≠ '.') ((namePart p.toList).dropWhile (· = '.')).reverse
    · have hall := List.dropWhile_eq_nil_iff.1 h '.'
        (List.mem_reverse.2 (List.contains_iff_mem.1 hdot))
      exact absurd hall (by decide)
    · obtain rfl : c = '.' := by simpa using hc
      obtain ⟨more, hrest⟩ : ∃ more,
          (namePart p.toList).dropWhile (· = '.') = kept.reverse ++ '.' :: more := by
        refine ⟨(((namePart p.toList).dropWhile (· = '.')).reverse.takeWhile (· ≠ '.')).reverse, ?_⟩
        rw [← List.reverse_inj, List.reverse_append, List.reverse_cons, List.reverse_reverse,
          List.reverse_reverse, List.append_assoc, List.singleton_append, ← h,
          List.takeWhile_append_dropWhile]
      refine ⟨(namePart p.toList).takeWhile (· = '.') ++ kept.reverse, '.' :: more, ?_,
        .inr ⟨more, rfl⟩, ?_⟩
      · rw [List.append_assoc, ← hrest, List.takeWhile_append_dropWhile]
      · rw [stem, if_pos hdot, String.toList_ofList, h, List.reverse_cons, List.dropLast_concat,
          List.append_assoc]
  · refine ⟨namePart p.toList, [], (List.append_nil _).symm, .inl rfl, ?_⟩
    rw [stem, if_neg hdot, folder_append_name]

/-- The extension of a last part begins at its last dot, if something else than dots is before
it. -/
theorem extension_of_name {body : List Char} (hname : namePart p.toList = body ++ '.' :: extension)
    (hbody : ∃ c ∈ body, c ≠ '.') (hdot : '.' ∉ extension) :
    Path.extension p = String.ofList ('.' :: extension) := by
  have hbody' : ∃ dots c more, body = dots ++ c :: more ∧ (∀ d ∈ dots, d = '.') ∧ c ≠ '.' := by
    obtain h | ⟨c, more, h, hc⟩ := dropWhile_forms (· = '.') body
    · obtain ⟨c, hmem, hne⟩ := hbody
      exact absurd (by simpa using List.dropWhile_eq_nil_iff.1 h c hmem) hne
    · refine ⟨body.takeWhile (· = '.'), c, more, ?_, fun d hd => ?_, by simpa using hc⟩
      · rw [← h, List.takeWhile_append_dropWhile]
      · simpa using List.mem_takeWhile_imp hd
  obtain ⟨dots, c, more, rfl, hdots, hc⟩ := hbody'
  have hdots' : ∀ d ∈ dots, decide (d = '.') = true := fun d hd => decide_eq_true (hdots d hd)
  have hkeep : ∀ d ∈ extension.reverse, (decide (d ≠ '.')) = true := fun d hd =>
    decide_eq_true (ne_of_mem_of_not_mem (List.mem_reverse.1 hd) hdot)
  have hstem : (stem p).toList = folderPart p.toList ++ (dots ++ c :: more) := by
    have htake : (namePart p.toList).takeWhile (· = '.') = dots := by
      rw [hname, List.append_assoc, List.takeWhile_append_of_pos hdots']
      simp [hc]
    have hdrop : (namePart p.toList).dropWhile (· = '.') = c :: more ++ '.' :: extension := by
      rw [hname, List.append_assoc, List.dropWhile_append_of_pos hdots']
      simp [hc]
    have hlast : ((c :: more ++ '.' :: extension).reverse.dropWhile (· ≠ '.')).reverse.dropLast
        = c :: more := by
      rw [List.reverse_append, List.reverse_cons, List.append_assoc,
        List.dropWhile_append_of_pos hkeep, List.singleton_append,
        List.dropWhile_cons_of_neg (by decide), List.reverse_cons, List.reverse_reverse,
        List.dropLast_concat]
    have hhas : (c :: more ++ '.' :: extension).contains '.' = true := by simp
    rw [stem, htake, hdrop, if_pos hhas, hlast, String.toList_ofList, List.append_assoc]
  have hwhole : p.toList = (stem p).toList ++ '.' :: extension := by
    rw [hstem, List.append_assoc, ← hname, folder_append_name]
  rw [Path.extension, congrArg (List.drop _) hwhole, List.drop_left]

/-! ## a path beside another one -/

/-- What can stand for an extension: an underscore, more of a name, and an extension. -/
structure IsMark (mark extension : List Char) : Prop where
  parts : ∃ more, mark = '_' :: more ++ '.' :: extension
  slash : '/' ∉ mark
  dot : '.' ∉ extension

theorem isMark_frame : IsMark "_frame.png".toList "png".toList :=
  ⟨⟨"frame".toList, rfl⟩, by decide, by decide⟩

theorem isMark_card : IsMark "_bg.png".toList "png".toList :=
  ⟨⟨"bg".toList, rfl⟩, by decide, by decide⟩

section

variable {m : String} (hmark : IsMark m.toList extension) (p : String)
include hmark

/-- The folder is kept, the last part gets the mark. -/
theorem exists_name_stem_append : ∃ kept ending,
    namePart p.toList = kept ++ ending ∧ (ending = [] ∨ ∃ more, ending = '.' :: more) ∧
      folderPart (stem p ++ m).toList = folderPart p.toList ∧
        namePart (stem p ++ m).toList = kept ++ m.toList := by
  obtain ⟨kept, ending, hname, hending, hstem⟩ := exists_stem p
  have hslash : '/' ∉ kept ++ m.toList := by
    refine fun hmem => (List.mem_append.1 hmem).elim (fun hkept => ?_) hmark.slash
    exact slash_notMem_namePart p.toList (hname ▸ List.mem_append_left _ hkept)
  refine ⟨kept, ending, hname, hending, ?_⟩
  rw [String.toList_append, hstem, List.append_assoc]
  exact folderPart_append (isFront_folderPart _) hslash

theorem folderName_stem_append : folderName (stem p ++ m) = folderName p := by
  obtain ⟨kept, ending, -, -, hfolder, -⟩ := exists_name_stem_append hmark p
  rw [folderName, folderName, hfolder]

/-- With the mark, the last part is another one, and none that a path only walks through. -/
theorem baseName_stem_append : baseName (stem p ++ m) ≠ baseName p ∧
    baseName (stem p ++ m) ∉ ["", ".", ".."] := by
  obtain ⟨kept, ending, hname, hending, -, hmarked⟩ := exists_name_stem_append hmark p
  obtain ⟨more, hm⟩ := hmark.parts
  rw [hm] at hmarked
  refine ⟨fun heq => ?_, fun hmem => ?_⟩
  · rw [baseName, baseName, String.ofList_inj, hmarked, hname, List.append_cancel_left_eq] at heq
    obtain rfl | ⟨rest, rfl⟩ := hending <;> cases heq
  · have hunderscore : '_' ∈ (baseName (stem p ++ m)).toList := by
      rw [baseName, String.toList_ofList, hmarked]
      simp
    revert hunderscore
    simp only [List.mem_cons, List.not_mem_nil, or_false] at hmem
    obtain h | h | h := hmem <;> rw [h] <;> decide

theorem stem_append_ne : stem p ++ m ≠ p := fun heq =>
  (baseName_stem_append hmark p).1 (congrArg baseName heq)

theorem extension_stem_append :
    Path.extension (stem p ++ m) = String.ofList ('.' :: extension) := by
  obtain ⟨kept, ending, -, -, -, hmarked⟩ := exists_name_stem_append hmark p
  obtain ⟨more, hm⟩ := hmark.parts
  rw [hm, ← List.append_assoc] at hmarked
  exact extension_of_name hmarked ⟨'_', by simp, by decide⟩ hmark.dot

end

end Path

/-! ## their places -/

namespace Workspace

open Path

variable {w : Workspace}

/-- A path is walked through its front, whatever stands behind it. -/
theorem exists_place_eq (w : Workspace) {front : List Char} (hfront : IsFront front) :
    ∃ above : List String, ∀ p : String, folderPart p.toList = front →
      w.place p = (step above (baseName p)).reverse := by
  have hwhole {p : String} (hp : folderPart p.toList = front) :
      p.toList = front ++ namePart p.toList := by rw [← hp, folder_append_name]
  obtain rfl | ⟨above, rfl⟩ := hfront
  · refine ⟨w.folder.reverse, fun p hp => ?_⟩
    have hslash : '/' ∉ p.toList := (hwhole hp).symm ▸ slash_notMem_namePart p.toList
    have hrelative : isAbsolute p = false := by
      rw [isAbsolute, beq_eq_false_iff_ne]
      exact fun hhead => hslash (List.mem_of_mem_head? hhead)
    have hparts : parts p = [baseName p] := by
      rw [parts, List.splitOn_eq_singleton hslash, baseName, ← List.nil_append (namePart _),
        ← hwhole hp]
      rfl
    rw [Workspace.place, origin, hrelative, hparts]
    rfl
  · refine ⟨((above.splitOn '/').map String.ofList).foldl step
      (if (above ++ ['/']).head? == some '/' then [] else w.folder).reverse, fun p hp => ?_⟩
    have habsolute : isAbsolute p = ((above ++ ['/']).head? == some '/') := by
      rw [isAbsolute, hwhole hp, List.head?_append_of_ne_nil _ (by simp)]
    have hparts : parts p = (above.splitOn '/').map String.ofList ++ [baseName p] := by
      rw [parts, hwhole hp, List.append_assoc, List.singleton_append,
        List.splitOn_append_cons_self, List.splitOn_eq_singleton (slash_notMem_namePart _),
        List.map_append]
      rfl
    rw [Workspace.place, origin, habsolute, hparts, List.foldl_append]
    rfl

/-- A name leads to another place than any other part does. -/
theorem step_ne {above : List String} {part other : String} (hpart : part ∉ ["", ".", ".."])
    (hne : part ≠ other) : step above part ≠ step above other := by
  simp only [List.mem_cons, List.not_mem_nil, or_false, not_or] at hpart
  obtain ⟨hempty, hstay, hup⟩ := hpart
  intro heq
  rw [step, if_neg (by simp [hempty, hstay]), if_neg hup, step] at heq
  have hlength := congrArg List.length heq
  split_ifs at heq hlength
  · simp at hlength
  · rw [List.length_cons, List.length_tail] at hlength
    omega
  · exact hne (List.cons.inj heq).1

theorem place_stem_append_ne {m : String} {extension : List Char}
    (hmark : IsMark m.toList extension) (p : String) : w.place (stem p ++ m) ≠ w.place p := by
  obtain ⟨-, -, -, -, hfolder, -⟩ := exists_name_stem_append hmark p
  obtain ⟨hne, hname⟩ := baseName_stem_append hmark p
  obtain ⟨above, hplace⟩ := w.exists_place_eq (isFront_folderPart p.toList)
  rw [hplace _ hfolder, hplace p rfl, Ne, List.reverse_inj]
  exact step_ne hname hne

end Workspace

namespace Path

/-- A path beside another one: in its folder, and for another file in every workspace. -/
structure IsBeside (p q : String) : Prop where
  folder : folderName p = folderName q
  ne : p ≠ q
  place : ∀ w : Workspace, w.place p ≠ w.place q

theorem isBeside_stem_append {m : String} {extension : List Char}
    (hmark : IsMark m.toList extension) (p : String) : IsBeside (stem p ++ m) p where
  folder := folderName_stem_append hmark p
  ne := stem_append_ne hmark p
  place _ := Workspace.place_stem_append_ne hmark p

end Path

end Storyboard
