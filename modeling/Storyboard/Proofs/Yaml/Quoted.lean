import Storyboard.Proofs.Json.Reader
import Storyboard.Proofs.Yaml.Cursor
import Storyboard.Yaml.Scalar.Quoted

/-!
# Storyboard.Proofs.Yaml.Quoted

A JSON string as a quoted scalar.  The escapes of JSON are escapes here too, and a run of
spaces stands for itself; only two escapes that make up a pair of surrogates do not make
up one character.

* `Quoted.readEscape_code` — a code unit stands for a character, or for half of a pair;
* `Quoted.read_quoted` — a string is read part by part.
-/

namespace Storyboard.Yaml

open Json Text

namespace Quoted

/-! ## escapes -/

/-- What a part of a string stands for by itself. -/
def charsOf : Piece → List Char
  | .char c _ => [c]
  | .escape _ c _ => [c]
  | .code _ _ _ _ n _ => ofCode n

theorem lookup_escape {letter c : Char} (h : simpleEscape? letter = some c) :
    escapes.lookup letter = some c := by
  unfold simpleEscape? at h
  split at h
  · next hsame =>
    obtain rfl := Option.some.inj h
    obtain rfl | rfl | rfl := hsame <;> rfl
  · repeat' split at h
    all_goals first | (next hletter => subst hletter; rw [← h]; rfl) | simp at h

/-- Four digits of base sixteen and the code unit that they denote. -/
theorem ofDigits_of_fourHex? {a b d e : Char} {n : Nat}
    (h : fourHex? [a, b, d, e] = some (n, [])) :
    ∃ ds, [a, b, d, e].mapM hexValue? = some ds ∧ ds.length = 4 ∧ ofDigits 16 ds = n ∧
      n < 0x10000 := by
  simp only [fourHex?] at h
  split at h
  · next na nb nd ne ha hb hd he =>
    obtain ⟨rfl, -⟩ := Prod.mk.inj (Option.some.inj h)
    have := (bounds_of_hexValue? ha).1
    have := (bounds_of_hexValue? hb).1
    have := (bounds_of_hexValue? hd).1
    have := (bounds_of_hexValue? he).1
    exact ⟨[na, nb, nd, ne], by simp [ha, hb, hd, he], rfl, by simp [ofDigits], by omega⟩
  · simp at h

theorem meant_of_unit {n : Nat} (h : n < 0x10000) : meant n = .ok (ofCode n) := by
  unfold meant
  rw [if_neg (by omega), if_neg (by omega)]

theorem readEscape_code {c : Cursor} {a b d e : Char} {n : Nat}
    (h : fourHex? [a, b, d, e] = some (n, [])) {rest : List Char}
    (hc : c.rest = 'u' :: a :: b :: d :: e :: rest) :
    readEscape c = .ok (ofCode n, c.skip 5) := by
  obtain ⟨ds, hmap, hlength, hvalue, hn⟩ := ofDigits_of_fourHex? h
  have hlookup : escapes.lookup 'u' = none ∧ codeLengths.lookup 'u' = some 4 := ⟨rfl, rfl⟩
  have htake : (a :: b :: d :: e :: rest).take 4 = [a, b, d, e] := rfl
  unfold readEscape
  simp only [hc, hlookup, htake, hmap, hlength, hvalue, if_true, meant_of_unit hn]
  rfl

theorem readEscape_letter {c : Cursor} {letter ch : Char} (h : simpleEscape? letter = some ch)
    {rest : List Char} (hc : c.rest = letter :: rest) : readEscape c = .ok ([ch], c.next) := by
  unfold readEscape
  simp only [hc, lookup_escape h]

/-! ## one part after another -/

variable {c : Cursor} {rest : List Char} {n : Nat}

theorem body_quote (hc : c.rest = '"' :: rest) : body true (n + 1) c = .ok ([], c.next) := by
  rw [body]
  simp [hc]

/-- A character that stands for itself. -/
theorem body_raw {ch : Char} (hch : isRaw ch = true) (hgap : isGap ch = false)
    (hc : c.rest = ch :: rest) :
    body true (n + 1) c = (do
      let (cs, c) ← body true n c.next
      return (ch :: cs, c)) := by
  simp only [isRaw, Bool.and_eq_true, bne_iff_ne] at hch
  rw [body]
  split
  · next h => simp [hc] at h
  · next h =>
    obtain ⟨rfl, -⟩ := List.cons.inj (hc.symm.trans h)
    rfl
  · next ch' rest' _ h =>
    obtain ⟨rfl, -⟩ := List.cons.inj (hc.symm.trans h)
    rw [if_neg (by simpa using hch.1.2), if_neg (by simpa using hch.2), if_neg (by simp [hgap])]

theorem body_escape (hc : c.rest = '\\' :: rest) :
    body true (n + 1) c = (do
      let (cs, c) ← readEscape c.next
      let (more, c) ← body true n c
      return (cs ++ more, c)) := by
  rw [body]
  simp [hc]

theorem body_spaces {spaces : List Char} (hc : c.rest = ' ' :: (spaces ++ rest))
    (hspaces : ∀ ch ∈ spaces, ch = ' ') (hrest : ∀ ch ∈ rest.head?, isGap ch = false) :
    body true (n + 1) c = (do
      let (more, c) ← body true n (c.skip (spaces.length + 1))
      return (' ' :: (spaces ++ more), c)) := by
  have hall : ∀ ch ∈ ' ' :: spaces, isSpacing ch = true := by
    intro ch hch
    obtain rfl | hch := List.mem_cons.1 hch
    · rfl
    · rw [hspaces ch hch]
      rfl
  have hhead : ∀ ch ∈ rest.head?, isSpacing ch = false ∧ isBreak ch = false := by
    intro ch hch
    simpa [isGap] using hrest ch hch
  have hrun : c.rest = (' ' :: spaces) ++ rest := hc
  have hspan : c.span isSpacing = (' ' :: spaces, c.skip (spaces.length + 1)) :=
    Cursor.span_append hrun hall fun ch hch => (hhead ch hch).1
  have hafter := Cursor.rest_skip_append hrun
  rw [List.length_cons] at hafter
  have hbreak : (c.skip (spaces.length + 1)).lineBreak? = none :=
    Cursor.lineBreak?_of_head (by rw [hafter]; exact fun ch hch => (hhead ch hch).2)
  have hgap : gap c = .ok (' ' :: spaces, c.skip (spaces.length + 1)) := by
    unfold gap
    rw [hspan]
    dsimp only
    rw [hbreak]
  rw [body]
  split
  · next h => simp [hc] at h
  · next h => exact absurd (List.cons.inj (hc.symm.trans h)).1 (by decide)
  · next ch' rest' _ h =>
    obtain ⟨rfl, -⟩ := List.cons.inj (hc.symm.trans h)
    rw [if_neg (by decide), if_neg (by decide), if_pos (by decide), hgap]
    rfl

/-! ## strings -/

/-- Whether a part of a string is a space. -/
def isSpace : Piece → Bool
  | .char c _ => c == ' '
  | _ => false

/-- Whether a part of a string ends no line. -/
def isFlat : Piece → Bool
  | .char c _ => !isBreak c
  | _ => true

/-- A character that stands for itself is no tab; so but for spaces it is no gap. -/
theorem isGap_of_flat {ch : Char} (h : isRaw ch = true) (hflat : isFlat (.char ch h) = true)
    (hspace : ch ≠ ' ') : isGap ch = false := by
  have htab : ch ≠ '\t' := by
    rintro rfl
    simp [isRaw] at h
  simp only [isFlat, Bool.not_eq_true'] at hflat
  simp [isGap, isSpacing, hspace, htab, hflat]

theorem chars_takeWhile (ps : Pieces) :
    Pieces.chars (ps.takeWhile isSpace) = (ps.takeWhile isSpace).flatMap charsOf ∧
      ∀ ch ∈ (ps.takeWhile isSpace).flatMap charsOf, ch = ' ' := by
  have hall : ∀ p ∈ ps.takeWhile isSpace, p.chars = [' '] ∧ charsOf p = [' '] := by
    intro p hp
    have hspace := List.mem_takeWhile_imp hp
    cases p with
    | char c h =>
      obtain rfl : c = ' ' := by simpa [isSpace] using hspace
      exact ⟨rfl, rfl⟩
    | escape letter c h => simp [isSpace] at hspace
    | code a b c d n h => simp [isSpace] at hspace
  constructor
  · exact List.flatMap_congr fun p hp => by rw [(hall p hp).1, (hall p hp).2]
  · intro ch hch
    obtain ⟨p, hp, hmem⟩ := List.mem_flatMap.1 hch
    rw [(hall p hp).2] at hmem
    exact List.mem_singleton.1 hmem

/-- What follows the spaces of a string is no gap. -/
theorem head_dropWhile {ps : Pieces} (hflat : ∀ p ∈ ps, isFlat p = true) :
    ∀ ch ∈ (Pieces.chars (ps.dropWhile isSpace) ++ '"' :: rest).head?, isGap ch = false := by
  cases hps : ps.dropWhile isSpace with
  | nil => simp [isGap, isSpacing]; rfl
  | cons p ps' =>
    have hspace : isSpace p = false := by
      have := List.head?_dropWhile_not isSpace ps
      rw [hps] at this
      simpa using this
    have hp : isFlat p = true := hflat p ((List.dropWhile_sublist _).subset (by rw [hps]; simp))
    cases p with
    | char c h =>
      have hgap := isGap_of_flat h hp (by simpa [isSpace] using hspace)
      simpa [Piece.chars] using hgap
    | escape letter c h => simp [Piece.chars, isGap, isSpacing]; rfl
    | code a b c d n h => simp [Piece.chars, isGap, isSpacing]; rfl

theorem chars_append (ps qs : Pieces) : Pieces.chars (ps ++ qs) = ps.chars ++ qs.chars :=
  List.flatMap_append

/-- Whether the parts of a string are read up to its closing quote, each by itself. -/
def IsReadThrough (ps : Pieces) : Prop :=
  ∀ (c : Cursor) (rest : List Char) (n : Nat), c.rest = ps.chars ++ '"' :: rest → ps.length < n →
    body true n c = .ok (ps.flatMap charsOf, c.skip (ps.chars.length + 1))

namespace IsReadThrough

variable {ps : Pieces}

theorem nil : IsReadThrough [] := by
  intro c rest n hc hn
  obtain ⟨n, rfl⟩ : ∃ m, n = m + 1 := ⟨n - 1, by simp at hn; omega⟩
  exact body_quote hc

theorem escape {letter ch : Char} (h : simpleEscape? letter = some ch) (hps : IsReadThrough ps) :
    IsReadThrough (.escape letter ch h :: ps) := by
  intro c rest n hc hn
  obtain ⟨n, rfl⟩ : ∃ m, n = m + 1 := ⟨n - 1, by omega⟩
  have hnext : c.next.rest = letter :: (ps.chars ++ '"' :: rest) := Cursor.rest_next_cons hc
  rw [body_escape hc]
  refine bind_eq_ok.2 ⟨_, readEscape_letter h hnext, ?_⟩
  exact bind_eq_ok.2 ⟨_, hps _ _ _ (Cursor.rest_next_cons hnext) (Nat.succ_lt_succ_iff.1 hn), rfl⟩

theorem code {a b d e : Char} {m : Nat} (h : fourHex? [a, b, d, e] = some (m, []))
    (hps : IsReadThrough ps) : IsReadThrough (.code a b d e m h :: ps) := by
  intro c rest n hc hn
  obtain ⟨n, rfl⟩ : ∃ m, n = m + 1 := ⟨n - 1, by omega⟩
  have hnext : c.next.rest = ['u', a, b, d, e] ++ (ps.chars ++ '"' :: rest) :=
    Cursor.rest_next_cons hc
  rw [body_escape hc]
  refine bind_eq_ok.2 ⟨_, readEscape_code h hnext, ?_⟩
  exact bind_eq_ok.2
    ⟨_, hps _ _ _ (Cursor.rest_skip_append hnext) (Nat.succ_lt_succ_iff.1 hn), rfl⟩

theorem char {ch : Char} (h : isRaw ch = true) (hgap : isGap ch = false) (hps : IsReadThrough ps) :
    IsReadThrough (.char ch h :: ps) := by
  intro c rest n hc hn
  obtain ⟨n, rfl⟩ : ∃ m, n = m + 1 := ⟨n - 1, by omega⟩
  rw [body_raw h hgap hc]
  exact bind_eq_ok.2
    ⟨_, hps _ _ _ (Cursor.rest_next_cons hc) (Nat.succ_lt_succ_iff.1 hn), rfl⟩

/-- A run of spaces is read at once. -/
theorem spaces (h : isRaw ' ' = true) (hflat : ∀ p ∈ ps, isFlat p = true)
    (hps : IsReadThrough (ps.dropWhile isSpace)) : IsReadThrough (.char ' ' h :: ps) := by
  intro c rest n hc hn
  obtain ⟨n, rfl⟩ : ∃ m, n = m + 1 := ⟨n - 1, by omega⟩
  obtain ⟨hchars, hspaces⟩ := chars_takeWhile ps
  have hsplit : ps.takeWhile isSpace ++ ps.dropWhile isSpace = ps :=
    List.takeWhile_append_dropWhile
  have hrest : ps.chars = (ps.takeWhile isSpace).flatMap charsOf ++
      Pieces.chars (ps.dropWhile isSpace) := by
    rw [← hchars, ← chars_append, hsplit]
  have hmeant : ps.flatMap charsOf = (ps.takeWhile isSpace).flatMap charsOf ++
      (ps.dropWhile isSpace).flatMap charsOf := by
    rw [← List.flatMap_append, hsplit]
  have hshorter : (ps.dropWhile isSpace).length ≤ ps.length :=
    (List.dropWhile_sublist isSpace).length_le
  have hc' : c.rest = (' ' :: (ps.takeWhile isSpace).flatMap charsOf) ++
      (Pieces.chars (ps.dropWhile isSpace) ++ '"' :: rest) := by
    rw [hc, Pieces.chars_cons, hrest]
    simp [Piece.chars]
  have hmore := hps _ _ n (Cursor.rest_skip_append hc')
    (by simp only [List.length_cons] at hn; omega)
  have hlength : (Pieces.chars (.char ' ' h :: ps)).length + 1 =
      (' ' :: (ps.takeWhile isSpace).flatMap charsOf).length +
        ((Pieces.chars (ps.dropWhile isSpace)).length + 1) := by
    rw [Pieces.chars_cons, hrest]
    simp only [Piece.chars, List.length_append, List.length_cons, List.length_nil]
    omega
  rw [body_spaces hc' hspaces (head_dropWhile hflat), List.flatMap_cons, hmeant, hlength]
  refine bind_eq_ok.2 ⟨_, hmore, ?_⟩
  rw [← Cursor.skip_add]
  rfl

end IsReadThrough

/-- A string is read up to its closing quote, each part by itself. -/
theorem isReadThrough (ps : Pieces) (hflat : ∀ p ∈ ps, isFlat p = true) : IsReadThrough ps := by
  -- A run of spaces is read at once, so the induction is on the length.
  induction hlength : ps.length using Nat.strong_induction_on generalizing ps with
  | _ length ih =>
  subst hlength
  match ps with
  | [] => exact .nil
  | p :: ps =>
    obtain ⟨hp, hps⟩ := List.forall_mem_cons.1 hflat
    have htail : IsReadThrough ps := ih ps.length (by simp) ps hps rfl
    cases p with
    | escape letter ch h => exact .escape h htail
    | code a b d e m h => exact .code h htail
    | char ch h =>
      by_cases hspace : ch = ' '
      · subst hspace
        have hsublist := List.dropWhile_sublist (p := isSpace) (l := ps)
        exact .spaces h hps (ih _ (Nat.lt_succ_of_le hsublist.length_le) _
          (fun p hp => hps p (hsublist.subset hp)) rfl)
      · exact .char h (isGap_of_flat h hp hspace) htail

/-- A string is read from quote to quote. -/
theorem read_quoted (ps : Pieces) (hflat : ∀ p ∈ ps, isFlat p = true) (hcounted : c.Counted)
    (hc : c.rest = ps.quoted ++ rest) :
    read true c = .ok (ps.flatMap charsOf, c.skip ps.quoted.length) := by
  have hnext : c.next.rest = ps.chars ++ '"' :: rest := by
    rw [Cursor.rest_next_cons hc]
    simp
  have hsteps : ps.length < c.steps := by
    have hparts := ps.length_le
    have hsteps := Cursor.length_rest_lt_steps hcounted
    simp only [hc, Pieces.quoted, List.length_append, List.length_cons] at hsteps
    omega
  rw [read, isReadThrough ps hflat _ _ _ hnext hsteps, Pieces.quoted, List.length_cons,
    List.length_append]
  rfl

end Quoted

end Storyboard.Yaml
