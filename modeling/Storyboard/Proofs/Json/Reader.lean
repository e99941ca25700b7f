import Storyboard.Proofs.Json.Lexeme

/-!
# Storyboard.Proofs.Json.Reader

The reader accepts what is spelt as a document, and nothing else.

* `Document.read_chars` — the characters of a document are read, and give its value;
* `exists_document` — what is read is a document.

Both go by the recursion of the reader: values, items and members, each with fuel for twice
its characters.
-/

namespace Storyboard.Json

open Pieces

/-! ## values -/

/-- Nothing ends a number but what may stand behind a value. -/
theorem endsNumber_gap (g : Gap) {c : Char} (hc : endsNumber c = true) (rest : List Char) :
    ∀ c' ∈ (g.chars ++ c :: rest).head?, endsNumber c' = true := by
  cases g with
  | nil => simpa [Gap.chars] using hc
  | cons b g => cases b <;> simp [Gap.chars, Blank.char, endsNumber]

theorem endsNumber_of_gap (g : Gap) : ∀ c ∈ g.chars.head?, endsNumber c = true := by
  cases g with
  | nil => simp [Gap.chars]
  | cons b g => cases b <;> simp [Gap.chars, Blank.char, endsNumber]

/-- A value starts with no blank, and with nothing that ends a list. -/
theorem Spelling.exists_head (t : Spelling) (rest : List Char) :
    ∃ c cs, t.chars ++ rest = c :: cs ∧ isInk c = true ∧ c ≠ ']' := by
  cases t with
  | word w => cases w <;> exact ⟨_, _, rfl, by decide⟩
  | number n v h =>
    obtain ⟨d, cs, hdigit, h | h⟩ := n.exists_head rest
    · refine ⟨d, cs, h, ?_⟩
      have := hdigit
      simp only [isInk, Bool.not_eq_true', Bool.or_eq_false_iff, beq_eq_false_iff_ne]
      refine ⟨⟨⟨⟨?_, ?_⟩, ?_⟩, ?_⟩, ?_⟩ <;> rintro rfl <;> exact absurd hdigit (by decide)
    · exact ⟨_, _, h, by decide⟩
  | string s => exact ⟨_, _, rfl, by decide⟩
  | noItems gap => exact ⟨_, _, rfl, by decide⟩
  | list gap items => exact ⟨_, _, rfl, by decide⟩
  | noMembers gap => exact ⟨_, _, rfl, by decide⟩
  | object gap members => exact ⟨_, _, rfl, by decide⟩

theorem Items.exists_head (items : Items) (rest : List Char) :
    ∃ c cs, items.chars ++ rest = c :: cs ∧ isInk c = true ∧ c ≠ ']' := by
  cases items with
  | last item gap =>
    rw [Items.chars, List.append_assoc]
    exact item.exists_head _
  | more item gap next items =>
    rw [Items.chars, List.append_assoc]
    exact item.exists_head _

theorem Members.exists_head (members : Members) (rest : List Char) :
    ∃ cs, members.chars ++ rest = '"' :: cs := by
  match members with
  | .last (.mk _ _ _ _) _ => exact ⟨_, rfl⟩
  | .more (.mk _ _ _ _) _ _ _ => exact ⟨_, rfl⟩

theorem readValue_word (w : Word) (rest : List Char) (fuel : Nat) :
    readValue (fuel + 1) (w.chars ++ rest) = .ok (w.value, rest) := by
  have hword := readWord?_chars w rest
  cases w <;> rfl

theorem readValue_literal {n : Literal} {v : Value} (hv : n.value? = some v) {rest : List Char}
    (hrest : ∀ c ∈ rest.head?, endsNumber c = true) (fuel : Nat) :
    readValue (fuel + 1) (n.chars ++ rest) = .ok (v, rest) := by
  have hhead : ∀ c ∈ (n.chars ++ rest).head?, c ≠ '"' ∧ c ≠ '[' ∧ c ≠ '{' := by
    obtain ⟨d, cs, hdigit, h | h⟩ := n.exists_head rest
    · simp only [h, List.head?_cons, Option.mem_some_iff, forall_eq']
      refine ⟨?_, ?_, ?_⟩ <;> rintro rfl <;> exact absurd hdigit (by decide)
    · simp [h]
  rw [readValue]
  · rw [readWord?_literal, readNumber_chars hv hrest]
  · exact fun cs h => (hhead '"' (by simp [h])).1 rfl
  · exact fun cs h => (hhead '[' (by simp [h])).2.1 rfl
  · exact fun cs h => (hhead '{' (by simp [h])).2.2 rfl

theorem Pieces.length_le (ps : Pieces) : ps.length ≤ ps.chars.length := by
  induction ps with
  | nil => rfl
  | cons p ps ih => cases p <;> simp [Piece.chars] <;> omega

section

variable {gap next : Gap} {rest : List Char} {fuel : Nat}

theorem readValue_string {s : Pieces} (hs : s.length < fuel + 1) :
    readValue (fuel + 1) ((Spelling.string s).chars ++ rest) = .ok (.text s.text, rest) := by
  simp only [Spelling.chars, Pieces.quoted, List.cons_append, List.append_assoc, List.nil_append]
  exact bind_eq_ok.2 ⟨_, readString_chars s rest hs, rfl⟩

theorem readValue_noItems :
    readValue (fuel + 1) ((Spelling.noItems gap).chars ++ rest) = .ok (.list [], rest) := by
  simp only [Spelling.chars, List.cons_append, List.append_assoc, List.nil_append]
  rw [readValue, skipBlanks_gap gap (by simp [isInk])]
  rfl

/-- A list is read, if its items are. -/
theorem readValue_list {items : Items} {vs : List Value}
    (h : readItems fuel (items.chars ++ rest) = .ok (vs, rest)) :
    readValue (fuel + 1) ((Spelling.list gap items).chars ++ rest) = .ok (.list vs, rest) := by
  obtain ⟨c, cs, hitems, hink, hclose⟩ := items.exists_head rest
  simp only [Spelling.chars, List.cons_append, List.append_assoc]
  rw [hitems] at h ⊢
  rw [readValue, skipBlanks_gap gap (by simp [hink])]
  split
  · next hcs => exact absurd (List.cons.inj hcs).1 hclose
  · exact bind_eq_ok.2 ⟨_, h, rfl⟩

theorem readValue_noMembers :
    readValue (fuel + 1) ((Spelling.noMembers gap).chars ++ rest) = .ok (.map [], rest) := by
  simp only [Spelling.chars, List.cons_append, List.append_assoc, List.nil_append]
  rw [readValue, skipBlanks_gap gap (by simp [isInk])]
  rfl

/-- An object is read, if its members are. -/
theorem readValue_object {members : Members} {entries : Entries}
    (h : readMembers fuel [] (members.chars ++ rest) = .ok (entries, rest)) :
    readValue (fuel + 1) ((Spelling.object gap members).chars ++ rest) =
      .ok (.map entries, rest) := by
  obtain ⟨cs, hmembers⟩ := members.exists_head rest
  simp only [Spelling.chars, List.cons_append, List.append_assoc]
  rw [hmembers] at h ⊢
  rw [readValue, skipBlanks_gap gap (by simp [isInk])]
  exact bind_eq_ok.2 ⟨_, h, rfl⟩

/-! ## items -/

theorem readItems_last {item : Spelling} {v : Value}
    (h : readValue fuel (item.chars ++ (gap.chars ++ ']' :: rest)) =
      .ok (v, gap.chars ++ ']' :: rest)) :
    readItems (fuel + 1) ((Items.last item gap).chars ++ rest) = .ok ([v], rest) := by
  have hgap : skipBlanks (gap.chars ++ ']' :: rest) = ']' :: rest :=
    skipBlanks_gap gap (by simp [isInk])
  simp only [Items.chars, List.append_assoc, List.cons_append, List.nil_append]
  refine bind_eq_ok.2 ⟨_, h, ?_⟩
  simp only [hgap]
  rfl

theorem readItems_more {item : Spelling} {items : Items} {v : Value} {vs : List Value}
    (h : readValue fuel
        (item.chars ++ (gap.chars ++ ',' :: (next.chars ++ (items.chars ++ rest)))) =
      .ok (v, gap.chars ++ ',' :: (next.chars ++ (items.chars ++ rest))))
    (hmore : readItems fuel (items.chars ++ rest) = .ok (vs, rest)) :
    readItems (fuel + 1) ((Items.more item gap next items).chars ++ rest) =
      .ok (v :: vs, rest) := by
  obtain ⟨c, cs, hitems, hink, -⟩ := items.exists_head rest
  simp only [Items.chars, List.append_assoc, List.cons_append]
  refine bind_eq_ok.2 ⟨_, h, ?_⟩
  rw [hitems] at hmore ⊢
  have hgap : skipBlanks (gap.chars ++ ',' :: (next.chars ++ c :: cs)) =
      ',' :: (next.chars ++ c :: cs) := skipBlanks_gap gap (by simp [isInk])
  have hnext : skipBlanks (next.chars ++ c :: cs) = c :: cs :=
    skipBlanks_gap next (by simp [hink])
  simp only [hgap, hnext]
  exact bind_eq_ok.2 ⟨_, hmore, rfl⟩

/-! ## members -/

/-- What is read after a member. -/
def readMore (fuel : Nat) (entries : Entries) (cs : List Char) :
    Except Fault (Entries × List Char) :=
  match skipBlanks cs with
  | ',' :: rest => readMembers fuel entries (skipBlanks rest)
  | '}' :: rest => .ok (entries, rest)
  | _ => .error .jsonMalformed

/-- A member is read up to its end, if its value is. -/
theorem readMembers_mk {name : Pieces} {gap' : Gap} {v : Spelling} {before : Entries}
    (hname : name.length < fuel + 1)
    (hread : readValue fuel (v.chars ++ rest) = .ok (v.value, rest)) :
    readMembers (fuel + 1) before ((Member.mk name gap gap' v).chars ++ rest) =
      readMore fuel ((Member.mk name gap gap' v).insertInto before) rest := by
  obtain ⟨c, cs, hv, hink, -⟩ := v.exists_head rest
  have hcolon : skipBlanks (gap.chars ++ ':' :: (gap'.chars ++ (v.chars ++ rest))) =
      ':' :: (gap'.chars ++ (v.chars ++ rest)) := skipBlanks_gap gap (by simp [isInk])
  have hvalue : skipBlanks (gap'.chars ++ (v.chars ++ rest)) = v.chars ++ rest :=
    skipBlanks_gap gap' (by simp [hv, hink])
  simp only [Member.chars, Pieces.quoted, List.cons_append, List.append_assoc, List.nil_append]
  rw [readMembers, readString_chars name _ hname]
  simp only [bind, Except.bind, hcolon, hvalue, hread]
  rfl

theorem readMore_close {entries : Entries} :
    readMore fuel entries (gap.chars ++ '}' :: rest) = .ok (entries, rest) := by
  rw [readMore, skipBlanks_gap gap (by simp [isInk])]
  rfl

theorem readMore_comma {entries : Entries} {members : Members} :
    readMore fuel entries (gap.chars ++ ',' :: (next.chars ++ (members.chars ++ rest))) =
      readMembers fuel entries (members.chars ++ rest) := by
  obtain ⟨cs, hmembers⟩ := members.exists_head rest
  rw [readMore, skipBlanks_gap gap (by simp [isInk])]
  exact congrArg (readMembers fuel entries) (skipBlanks_gap next (by simp [hmembers, isInk]))

end

/-! ## by the recursion of the reader -/

mutual

/-- A value is read as it is spelt, if what follows it ends it. -/
theorem Spelling.readValue_chars (t : Spelling) {rest : List Char}
    (hrest : ∀ c ∈ rest.head?, endsNumber c = true) (fuel : Nat) (h : 2 * t.chars.length ≤ fuel) :
    readValue fuel (t.chars ++ rest) = .ok (t.value, rest) := by
  have hpos : 0 < fuel := by
    obtain ⟨c, cs, hcs, -⟩ := t.exists_head []
    have := congrArg List.length hcs
    simp only [List.append_nil, List.length_cons] at this
    omega
  obtain ⟨fuel, rfl⟩ : ∃ n, fuel = n + 1 := ⟨fuel - 1, by omega⟩
  match t with
  | .word w => exact readValue_word w rest fuel
  | .number n v hv => exact readValue_literal hv hrest fuel
  | .string s =>
    have hlength := s.length_le
    simp only [Spelling.chars, Pieces.quoted, List.length_cons, List.length_append] at h
    exact readValue_string (by omega)
  | .noItems gap => exact readValue_noItems
  | .list gap items =>
    simp only [Spelling.chars, List.length_cons, List.length_append] at h
    exact readValue_list (items.readItems_chars rest fuel (by omega))
  | .noMembers gap => exact readValue_noMembers
  | .object gap members =>
    simp only [Spelling.chars, List.length_cons, List.length_append] at h
    exact readValue_object (members.readMembers_chars [] rest fuel (by omega))

/-- Items are read up to the closing bracket. -/
theorem Items.readItems_chars (items : Items) (rest : List Char) (fuel : Nat)
    (h : 2 * items.chars.length ≤ fuel) :
    readItems fuel (items.chars ++ rest) = .ok (items.values, rest) := by
  match items with
  | .last item gap =>
    simp only [Items.chars, List.length_append, List.length_cons] at h
    obtain ⟨fuel, rfl⟩ : ∃ n, fuel = n + 1 := ⟨fuel - 1, by omega⟩
    have hends := endsNumber_gap gap (c := ']') (by decide) rest
    exact readItems_last (item.readValue_chars hends fuel (by omega))
  | .more item gap next items =>
    simp only [Items.chars, List.length_append, List.length_cons] at h
    obtain ⟨fuel, rfl⟩ : ∃ n, fuel = n + 1 := ⟨fuel - 1, by omega⟩
    have hends := endsNumber_gap gap (c := ',') (by decide) (next.chars ++ (items.chars ++ rest))
    exact readItems_more (item.readValue_chars hends fuel (by omega))
      (items.readItems_chars rest fuel (by omega))

/-- Members are read up to the closing brace. -/
theorem Members.readMembers_chars (members : Members) (before : Entries) (rest : List Char)
    (fuel : Nat) (h : 2 * members.chars.length ≤ fuel) :
    readMembers fuel before (members.chars ++ rest) = .ok (members.insertInto before, rest) := by
  match members with
  | .last (.mk name gap gap' v) gap'' =>
    simp only [Members.chars, Member.chars, Pieces.quoted, List.length_append,
      List.length_cons] at h
    obtain ⟨fuel, rfl⟩ : ∃ n, fuel = n + 1 := ⟨fuel - 1, by omega⟩
    have hends := endsNumber_gap gap'' (c := '}') (by decide) rest
    have hname := name.length_le
    rw [Members.chars, List.append_assoc, List.append_assoc, List.singleton_append,
      readMembers_mk (by omega) (v.readValue_chars hends fuel (by omega)), readMore_close]
    rfl
  | .more (.mk name gap gap' v) gap'' next members =>
    simp only [Members.chars, Member.chars, Pieces.quoted, List.length_append,
      List.length_cons] at h
    obtain ⟨fuel, rfl⟩ : ∃ n, fuel = n + 1 := ⟨fuel - 1, by omega⟩
    have hends := endsNumber_gap gap'' (c := ',') (by decide)
      (next.chars ++ (members.chars ++ rest))
    have hname := name.length_le
    rw [Members.chars, List.append_assoc, List.append_assoc, List.cons_append, List.append_assoc,
      readMembers_mk (by omega) (v.readValue_chars hends fuel (by omega)), readMore_comma]
    exact members.readMembers_chars _ rest fuel (by omega)

end

/-- A document is read as it is spelt. -/
theorem Document.read_chars (d : Document) : read d.chars = .ok d.value := by
  obtain ⟨c, cs, hroot, hink, -⟩ := d.root.exists_head d.after.chars
  have hread := d.root.readValue_chars (endsNumber_of_gap d.after)
    (2 * d.chars.length + 2) (by simp only [chars, List.length_append]; omega)
  have hafter : skipBlanks (d.after.chars ++ []) = [] := skipBlanks_gap d.after (by simp)
  rw [List.append_nil] at hafter
  unfold read
  rw [chars, hroot, skipBlanks_gap d.before (by simp [hink])]
  rw [chars, hroot] at hread
  refine bind_eq_ok.2 ⟨_, hread, ?_⟩
  simp only [hafter]
  rfl

/-! ## what is read as a value is spelt -/

/-- Whether what is read with some fuel, of a value, items or members, is spelt. -/
def Spelt (fuel : Nat) : Prop :=
  (∀ cs rest v, readValue fuel cs = .ok (v, rest) → ∃ t : Spelling, cs = t.chars ++ rest) ∧
  (∀ cs rest vs, readItems fuel cs = .ok (vs, rest) → ∃ t : Items, cs = t.chars ++ rest) ∧
  ∀ cs rest before es, readMembers fuel before cs = .ok (es, rest) →
    ∃ t : Members, cs = t.chars ++ rest

theorem exists_spelling_of_readValue {fuel : Nat} (ih : Spelt fuel) {cs rest : List Char}
    {v : Value} (h : readValue (fuel + 1) cs = .ok (v, rest)) :
    ∃ t : Spelling, cs = t.chars ++ rest := by
  obtain ⟨-, ihitems, ihmembers⟩ := ih
  unfold readValue at h
  split at h
  · obtain ⟨⟨us, rest'⟩, hread, h⟩ := bind_eq_ok.1 h
    obtain ⟨-, rfl⟩ := Prod.mk.inj (Except.ok.inj h)
    obtain ⟨ps, rfl⟩ := exists_pieces hread
    exact ⟨.string ps, by simp [Spelling.chars, Pieces.quoted]⟩
  · next more =>
    obtain ⟨gap, hgap⟩ := exists_gap more
    split at h
    · next hclose =>
      obtain ⟨-, rfl⟩ := Prod.mk.inj (Except.ok.inj h)
      exact ⟨.noItems gap, by rw [hgap, hclose]; simp [Spelling.chars]⟩
    · obtain ⟨⟨vs, rest'⟩, hread, h⟩ := bind_eq_ok.1 h
      obtain ⟨-, rfl⟩ := Prod.mk.inj (Except.ok.inj h)
      obtain ⟨items, hitems⟩ := ihitems _ _ _ hread
      exact ⟨.list gap items, by rw [hgap, hitems]; simp [Spelling.chars]⟩
  · next more =>
    obtain ⟨gap, hgap⟩ := exists_gap more
    split at h
    · next hclose =>
      obtain ⟨-, rfl⟩ := Prod.mk.inj (Except.ok.inj h)
      exact ⟨.noMembers gap, by rw [hgap, hclose]; simp [Spelling.chars]⟩
    · obtain ⟨⟨vs, rest'⟩, hread, h⟩ := bind_eq_ok.1 h
      obtain ⟨-, rfl⟩ := Prod.mk.inj (Except.ok.inj h)
      obtain ⟨members, hmembers⟩ := ihmembers _ _ _ _ hread
      exact ⟨.object gap members, by rw [hgap, hmembers]; simp [Spelling.chars]⟩
  · split at h
    · next hword =>
      obtain rfl := Except.ok.inj h
      obtain ⟨w, rfl⟩ := exists_word hword
      exact ⟨.word w, rfl⟩
    · obtain ⟨n, hv, rfl⟩ := exists_literal h
      exact ⟨.number n v hv, rfl⟩

theorem exists_items_of_readItems {fuel : Nat} (ih : Spelt fuel) {cs rest : List Char}
    {vs : List Value} (h : readItems (fuel + 1) cs = .ok (vs, rest)) :
    ∃ t : Items, cs = t.chars ++ rest := by
  obtain ⟨ihvalue, ihitems, -⟩ := ih
  obtain ⟨⟨v, more⟩, hread, hmore⟩ := bind_eq_ok.1 h
  obtain ⟨item, hitem⟩ := ihvalue _ _ _ hread
  obtain ⟨gap, hgap⟩ := exists_gap more
  dsimp only at hmore
  split at hmore
  · next more' hcomma =>
    obtain ⟨⟨vs', rest'⟩, hitems, hend⟩ := bind_eq_ok.1 hmore
    obtain ⟨-, rfl⟩ := Prod.mk.inj (Except.ok.inj hend)
    obtain ⟨items, hitems⟩ := ihitems _ _ _ hitems
    obtain ⟨next, hnext⟩ := exists_gap more'
    refine ⟨.more item gap next items, ?_⟩
    rw [hitem, hgap, hcomma, hnext, hitems]
    simp [Items.chars]
  · next hclose =>
    obtain ⟨-, rfl⟩ := Prod.mk.inj (Except.ok.inj hmore)
    exact ⟨.last item gap, by rw [hitem, hgap, hclose]; simp [Items.chars]⟩
  · simp [throw_ne_ok] at hmore

theorem exists_members_of_readMembers {fuel : Nat} (ih : Spelt fuel) {cs rest : List Char}
    {before es : Entries} (h : readMembers (fuel + 1) before cs = .ok (es, rest)) :
    ∃ t : Members, cs = t.chars ++ rest := by
  obtain ⟨ihvalue, -, ihmembers⟩ := ih
  unfold readMembers at h
  split at h
  · next start =>
    obtain ⟨⟨us, more⟩, hread, hmore⟩ := bind_eq_ok.1 h
    obtain ⟨name, hname⟩ := exists_pieces hread
    obtain ⟨gap, hgap⟩ := exists_gap more
    dsimp only at hmore
    split at hmore
    · next more' hcolon =>
      obtain ⟨gap', hgap'⟩ := exists_gap more'
      obtain ⟨⟨v, after⟩, hread, h⟩ := bind_eq_ok.1 hmore
      obtain ⟨value, hvalue⟩ := ihvalue _ _ _ hread
      obtain ⟨gap'', hgap''⟩ := exists_gap after
      have hmember : '"' :: start = (Member.mk name gap gap' value).chars ++ after := by
        rw [hname, hgap, hcolon, hgap', hvalue]
        simp [Member.chars, Pieces.quoted]
      rw [hmember]
      dsimp only at h
      split at h
      · next after' hcomma =>
        obtain ⟨members, hmembers⟩ := ihmembers _ _ _ _ h
        obtain ⟨next, hnext⟩ := exists_gap after'
        refine ⟨.more (.mk name gap gap' value) gap'' next members, ?_⟩
        rw [hgap'', hcomma, hnext, hmembers]
        simp [Members.chars]
      · next hclose =>
        obtain ⟨-, rfl⟩ := Prod.mk.inj (Except.ok.inj h)
        refine ⟨.last (.mk name gap gap' value) gap'', ?_⟩
        rw [hgap'', hclose]
        simp [Members.chars]
      · simp [throw_ne_ok] at h
    · simp [throw_ne_ok] at hmore
  · simp at h

theorem spelt (fuel : Nat) : Spelt fuel := by
  induction fuel with
  | zero => simp [Spelt, readValue, readItems, readMembers]
  | succ fuel ih =>
    exact ⟨fun _ _ _ => exists_spelling_of_readValue ih, fun _ _ _ => exists_items_of_readItems ih,
      fun _ _ _ _ => exists_members_of_readMembers ih⟩

/-- What is read as a document is spelt in some way, which gives its value. -/
theorem exists_document {cs : List Char} {v : Value} (h : read cs = .ok v) :
    ∃ d : Document, d.chars = cs ∧ d.value = v := by
  have hchars : ∃ d : Document, d.chars = cs := by
    obtain ⟨before, hbefore⟩ := exists_gap cs
    obtain ⟨⟨v', rest⟩, hread, hend⟩ := bind_eq_ok.1 h
    obtain ⟨root, hroot⟩ := (spelt _).1 _ _ _ hread
    obtain ⟨after, hafter⟩ := exists_gap rest
    dsimp only at hend
    split at hend
    · next hempty =>
      rw [List.isEmpty_iff.1 hempty, List.append_nil] at hafter
      exact ⟨⟨before, root, after⟩, by rw [Document.chars, ← hafter, ← hroot, ← hbefore]⟩
    · simp [throw_ne_ok] at hend
  obtain ⟨d, rfl⟩ := hchars
  exact ⟨d, rfl, Except.ok.inj (d.read_chars.symm.trans h)⟩

end Storyboard.Json
