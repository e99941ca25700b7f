import Storyboard.Proofs.Json.Number
import Storyboard.Proofs.Json.Reader
import Storyboard.Proofs.Program.Files

/-!
# Storyboard.Proofs.Json.Written

What is written as a JSON document is read back.  A value that a document can hold is written in one
of its spellings: every item and member on a line of its own, characters outside ASCII as they are.
So the reader, which takes every spelling, gives the value again.

* `Value.IsJson` — the values of documents;
* `isJson_of_read` — what is read is one of them;
* `spells_of_write` — what is written is a spelling of the value;
* `read_of_text` — and is read as it.
-/

namespace Storyboard

open Number

/-! ## the values of documents -/

/-- The entries of an object, by the names of its members. -/
def Entries.ofMembers (members : List (String × Value)) : Entries :=
  members.map fun m => (.text m.1, m.2)

/-- A value that a JSON document can hold.  No two members of an object have one name. -/
inductive Value.IsJson : Value → Prop
  | null : IsJson .null
  | bool (b : Bool) : IsJson (.bool b)
  | int (i : Int) : IsJson (.int i)
  | float (x : Double) : IsJson (.float x)
  | text (s : String) : IsJson (.text s)
  | list {items : List Value} (h : ∀ v ∈ items, IsJson v) : IsJson (.list items)
  | map {members : List (String × Value)} (hnames : (members.map Prod.fst).Nodup)
      (h : ∀ m ∈ members, IsJson m.2) : IsJson (.map (Entries.ofMembers members))

namespace Entries

variable {name : String} {v : Value} {members : List (String × Value)}

theorem sameKey_text (s t : String) : (Value.text s).sameKey (.text t) = (s == t) := rfl

/-- A member with a new name is put at the end. -/
theorem insert_of_notMem (h : name ∉ members.map Prod.fst) (v : Value) :
    insert (.text name) v (ofMembers members) = ofMembers (members ++ [(name, v)]) := by
  induction members with
  | nil => rfl
  | cons m members ih =>
    rw [List.map_cons, List.mem_cons, not_or] at h
    have hkey : ¬((Value.text m.1).sameKey (.text name)) = true := by
      rw [sameKey_text, beq_iff_eq]
      exact Ne.symm h.1
    exact (if_neg hkey).trans (congrArg ((.text m.1, m.2) :: ·) (ih h.2))

/-- A member with a name that is there gets its value there. -/
theorem exists_insert_of_mem (h : name ∈ members.map Prod.fst) (v : Value) :
    ∃ members', insert (.text name) v (ofMembers members) = ofMembers members' ∧
      members'.map Prod.fst = members.map Prod.fst ∧
      ∀ m ∈ members', m ∈ members ∨ m.2 = v := by
  induction members with
  | nil => cases h
  | cons m members ih =>
    by_cases hname : m.1 = name
    · refine ⟨(m.1, v) :: members, ?_, rfl, ?_⟩
      · have hkey : ((Value.text m.1).sameKey (.text name)) = true := by
          rw [sameKey_text, beq_iff_eq, hname]
        exact if_pos hkey
      · intro m' hm'
        obtain rfl | hrest := List.mem_cons.1 hm'
        · exact .inr rfl
        · exact .inl (List.mem_cons_of_mem _ hrest)
    · have hkey : ¬((Value.text m.1).sameKey (.text name)) = true := by
        rwa [sameKey_text, beq_iff_eq]
      rw [List.map_cons, List.mem_cons] at h
      obtain ⟨members', heq, hnames, hmem⟩ := ih (h.resolve_left (Ne.symm hname))
      refine ⟨m :: members', ?_, congrArg (m.1 :: ·) hnames, ?_⟩
      · exact (if_neg hkey).trans (congrArg ((.text m.1, m.2) :: ·) heq)
      · intro m' hm'
        obtain rfl | hrest := List.mem_cons.1 hm'
        · exact .inl List.mem_cons_self
        · exact (hmem m' hrest).imp_left (List.mem_cons_of_mem _)

/-- An object stays one with another member. -/
theorem isJson_insert {entries : Entries} (h : (Value.map entries).IsJson) (name : String)
    (hv : v.IsJson) : (Value.map (insert (.text name) v entries)).IsJson := by
  cases h with
  | @map members hnames hmembers =>
    by_cases hname : name ∈ members.map Prod.fst
    · obtain ⟨members', heq, hnames', hmem⟩ := exists_insert_of_mem hname v
      rw [heq]
      refine .map (hnames' ▸ hnames) fun m hm => ?_
      obtain hold | rfl := hmem m hm
      · exact hmembers m hold
      · exact hv
    · rw [insert_of_notMem hname]
      refine .map ?_ fun m hm => ?_
      · rw [List.map_append, List.map_singleton, ← List.concat_eq_append]
        exact hnames.concat hname
      · obtain hold | hnew := List.mem_append.1 hm
        · exact hmembers m hold
        · obtain rfl := List.mem_singleton.1 hnew
          exact hv

end Entries

namespace Json

/-! ## what is read -/

theorem Word.isJson_value (w : Word) : w.value.IsJson := by
  cases w with
  | null => exact .null
  | true | false => exact .bool _
  | nan | infinity | minusInfinity => exact .float _

theorem Literal.isJson_of_value? {n : Literal} {v : Value} (h : n.value? = some v) : v.IsJson := by
  unfold Literal.value? at h
  split at h
  · obtain ⟨i, -, rfl⟩ := Option.map_eq_some_iff.1 h
    exact .int i
  · obtain ⟨x, -, rfl⟩ := Option.map_eq_some_iff.1 h
    exact .float x

theorem isJson_noMembers : (Value.map []).IsJson :=
  @Value.IsJson.map [] List.nodup_nil (List.forall_mem_nil _)

mutual

theorem Spelling.isJson_value (t : Spelling) : t.value.IsJson := by
  match t with
  | .word w => exact w.isJson_value
  | .number n v h => exact Literal.isJson_of_value? h
  | .string s => exact .text s.text
  | .noItems gap => exact .list (List.forall_mem_nil _)
  | .list gap items => exact .list items.isJson_values
  | .noMembers gap => exact isJson_noMembers
  | .object gap members => exact members.isJson_insertInto isJson_noMembers

theorem Items.isJson_values (t : Items) : ∀ v ∈ t.values, v.IsJson := by
  match t with
  | .last item gap => exact List.forall_mem_singleton.2 item.isJson_value
  | .more item gap next items =>
    exact List.forall_mem_cons.2 ⟨item.isJson_value, items.isJson_values⟩

theorem Members.isJson_insertInto (t : Members) {before : Entries}
    (h : (Value.map before).IsJson) : (Value.map (t.insertInto before)).IsJson := by
  match t with
  | .last (.mk name gap gap' v) gap'' => exact Entries.isJson_insert h name.text v.isJson_value
  | .more (.mk name gap gap' v) gap'' next members =>
    exact members.isJson_insertInto (Entries.isJson_insert h name.text v.isJson_value)

end

/-- What is read is a value of a document. -/
theorem isJson_of_read {cs : List Char} {v : Value} (h : read cs = .ok v) : v.IsJson := by
  obtain ⟨d, -, rfl⟩ := exists_document h
  exact d.root.isJson_value

/-! ## strings -/

namespace Pieces

/-- A code that begins no pair stands for itself. -/
theorem meaning_code {a b c d : Char} {n : Nat} (h : fourHex? [a, b, c, d] = some (n, []))
    (hhigh : isHigh n = false) (ps : Pieces) :
    meaning (.code a b c d n h :: ps) = Text.ofCode n ++ meaning ps := by
  cases ps with
  | nil => rfl
  | cons p ps =>
    cases p with
    | char c hc => rfl
    | escape letter meant hletter => rfl
    | code a' b' c' d' low hlow =>
      rw [meaning, hhigh, Bool.false_and, if_neg (by decide)]

end Pieces

/-- The four digits of a control character. -/
theorem fourHex?_hexText :
    ∀ n < 0x20, fourHex? ((Text.hexText 4 n).map Char.toLower) = some (n, []) ∧
      isHigh n = false ∧ Text.ofCode n = [Char.ofNat n] := by
  decide

/-- A character is written as one part of a string, which stands for it. -/
theorem exists_piece (c : Char) :
    ∃ p : Piece, p.chars = escapedChar c ∧
      ∀ ps : Pieces, Pieces.meaning (p :: ps) = c :: ps.meaning := by
  have hescape (letter : Char) (hletter : simpleEscape? letter = some c)
      (hc : escapedChar c = ['\\', letter]) : ∃ p : Piece, p.chars = escapedChar c ∧
        ∀ ps : Pieces, Pieces.meaning (p :: ps) = c :: ps.meaning :=
    ⟨.escape letter c hletter, hc.symm, fun _ => rfl⟩
  unfold escapedChar at hescape ⊢
  split_ifs at hescape ⊢ with hself hn hr ht hb hf hcontrol
  · obtain rfl | rfl := hself
    · exact hescape '"' rfl rfl
    · exact hescape '\\' rfl rfl
  · exact hescape 'n' (by rw [hn]; rfl) rfl
  · exact hescape 'r' (by rw [hr]; rfl) rfl
  · exact hescape 't' (by rw [ht]; rfl) rfl
  · exact hescape 'b' (by rw [hb]; rfl) rfl
  · exact hescape 'f' (by rw [hf]; rfl) rfl
  · obtain ⟨hhex, hhigh, hself⟩ := fourHex?_hexText c.toNat hcontrol
    obtain ⟨a, b, d, e, hdigits, hcode⟩ := exists_of_fourHex? hhex
    refine ⟨.code a b d e c.toNat hcode, by rw [hdigits]; rfl, fun ps => ?_⟩
    rw [Pieces.meaning_code hcode hhigh, hself, Char.ofNat_toNat]
    rfl
  · have hraw : isRaw c = true := by
      rw [not_or] at hself
      simp [isRaw, hself, Nat.le_of_not_lt hcontrol]
    exact ⟨.char c hraw, rfl, fun _ => rfl⟩

/-- A text is written as a string that stands for it. -/
theorem exists_pieces_of_text (s : String) :
    ∃ ps : Pieces, ps.quoted = stringText s ∧ ps.text = s := by
  have hchars (cs : List Char) :
      ∃ ps : Pieces, ps.chars = cs.flatMap escapedChar ∧ ps.meaning = cs := by
    induction cs with
    | nil => exact ⟨[], rfl, rfl⟩
    | cons c cs ih =>
      obtain ⟨ps, hps, hmeaning⟩ := ih
      obtain ⟨p, hp, hcons⟩ := exists_piece c
      exact ⟨p :: ps, by rw [Pieces.chars_cons, hp, hps]; rfl, by rw [hcons, hmeaning]⟩
  obtain ⟨ps, hps, hmeaning⟩ := hchars s.toList
  exact ⟨ps, by rw [Pieces.quoted, hps]; rfl, by rw [Pieces.text, hmeaning, String.ofList_toList]⟩

/-! ## values -/

/-- Characters are a spelling of a value, and none of them is a carriage return. -/
structure Spells (cs : List Char) (v : Value) : Prop where
  spelling : ∃ t : Spelling, t.chars = cs ∧ t.value = v
  lines : ∀ c ∈ cs, c ≠ '\r'

/-- A line end and the indentation of a level. -/
def lineGap (level : Nat) : Gap := .lineFeed :: List.replicate (2 * level) .space

theorem chars_lineGap (level : Nat) : (lineGap level).chars = newLine level := by
  simp [Gap.chars, lineGap, newLine, Blank.char]

theorem ne_carriageReturn_newLine (level : Nat) : ∀ c ∈ newLine level, c ≠ '\r' := by
  intro c hc
  obtain rfl | hblank := List.mem_cons.1 hc
  · decide
  · obtain ⟨-, rfl⟩ := List.mem_replicate.1 hblank
    decide

theorem spells_word (w : Word) : Spells w.chars w.value :=
  ⟨⟨.word w, rfl, rfl⟩, w.ne_carriageReturn⟩

theorem spells_literal {n : Literal} {v : Value} (h : n.value? = some v) : Spells n.chars v :=
  ⟨⟨.number n v h, rfl, rfl⟩, n.ne_carriageReturn⟩

theorem spells_text (s : String) : Spells (stringText s) (.text s) := by
  obtain ⟨ps, hps, htext⟩ := exists_pieces_of_text s
  refine ⟨⟨.string ps, hps, congrArg Value.text htext⟩, ?_⟩
  rw [← hps]
  exact ps.ne_carriageReturn

theorem spells_float (x : Double) : Spells (x.textIn Double.jsonLayout).toList (.float x) := by
  cases hfinite : x.isFinite with
  | true =>
    obtain ⟨n, hchars, hvalue⟩ := exists_literal_of_isFinite hfinite
    rw [← hchars]
    exact spells_literal hvalue
  | false =>
    cases x with
    | finite negative m e h => cases hfinite
    | infinite negative =>
      cases negative with
      | false => exact spells_word .infinity
      | true => exact spells_word .minusInfinity
    | nan => exact spells_word .nan

theorem spells_int {i : Int} {s : String} (h : integerText i = .ok s) :
    Spells s.toList (.int i) := by
  obtain ⟨hshort, rfl⟩ := integerText_eq_ok.1 h
  rw [← Literal.chars_ofInt]
  exact spells_literal (Literal.value?_ofInt hshort)

/-- Whether what is written of a value, at any level, is a spelling of it. -/
def IsSpelt (v : Value) : Prop := ∀ level cs, write level v = .ok cs → Spells cs v

/-! ### items -/

variable {level : Nat} {cs : List Char}

theorem writeItems_singleton_eq_ok {v : Value} : writeItems level [v] = .ok cs ↔
    ∃ item, write level v = .ok item ∧ cs = newLine level ++ item := by
  rw [writeItems]
  simp only [bind_eq_ok, pure_eq_ok]

theorem writeItems_cons_cons_eq_ok {v v' : Value} {vs : List Value} :
    writeItems level (v :: v' :: vs) = .ok cs ↔ ∃ item, write level v = .ok item ∧
      ∃ more, writeItems level (v' :: vs) = .ok more ∧
        cs = newLine level ++ item ++ ',' :: more := by
  rw [writeItems]
  · simp only [bind_eq_ok, pure_eq_ok]
  · exact List.cons_ne_nil _ _

/-- Items are written one by one, each after a line end. -/
theorem exists_items {vs : List Value} (hitems : ∀ v ∈ vs, IsSpelt v) (hne : vs ≠ [])
    (h : writeItems level vs = .ok cs) (gap : Gap) :
    (∃ t : Items, newLine level ++ t.chars = cs ++ (gap.chars ++ [']']) ∧ t.values = vs) ∧
      ∀ c ∈ cs, c ≠ '\r' := by
  induction vs generalizing cs with
  | nil => exact absurd rfl hne
  | cons v vs ih =>
    cases vs with
    | nil =>
      obtain ⟨item, hitem, rfl⟩ := writeItems_singleton_eq_ok.1 h
      obtain ⟨⟨t, rfl, rfl⟩, hlines⟩ := hitems v List.mem_cons_self level _ hitem
      refine ⟨⟨.last t gap, ?_, rfl⟩, ?_⟩
      · rw [Items.chars, List.append_assoc]
      · exact List.forall_mem_append.2 ⟨ne_carriageReturn_newLine level, hlines⟩
    | cons v' vs =>
      obtain ⟨item, hitem, more, hmore, rfl⟩ := writeItems_cons_cons_eq_ok.1 h
      obtain ⟨⟨t, rfl, rfl⟩, hlines⟩ := hitems v List.mem_cons_self level _ hitem
      obtain ⟨⟨ts, hts, hvalues⟩, hrest⟩ :=
        ih (fun v hv => hitems v (List.mem_cons_of_mem _ hv)) (List.cons_ne_nil _ _) hmore
      refine ⟨⟨.more t [] (lineGap level) ts, ?_, ?_⟩, ?_⟩
      · rw [Items.chars, chars_lineGap, hts]
        simp [Gap.chars]
      · rw [Items.values, hvalues]
      · simp only [List.forall_mem_append, List.forall_mem_cons]
        exact ⟨⟨ne_carriageReturn_newLine level, hlines⟩, by decide, hrest⟩

/-! ### members -/

/-- A member after a line end, as it is written. -/
def memberText (level : Nat) (name : String) (value : List Char) : List Char :=
  newLine level ++ stringText name ++ ':' :: ' ' :: value

variable {name : String} {v : Value}

theorem writeMembers_singleton_eq_ok :
    writeMembers level (Entries.ofMembers [(name, v)]) = .ok cs ↔
      ∃ value, write level v = .ok value ∧ cs = memberText level name value := by
  change writeMembers level [_] = .ok cs ↔ _
  rw [writeMembers]
  simp only [bind_eq_ok, pure_eq_ok, nameText, Except.ok.injEq, exists_eq_left', memberText]

theorem writeMembers_cons_cons_eq_ok {m : String × Value} {members : List (String × Value)} :
    writeMembers level (Entries.ofMembers ((name, v) :: m :: members)) = .ok cs ↔
      ∃ value, write level v = .ok value ∧
        ∃ more, writeMembers level (Entries.ofMembers (m :: members)) = .ok more ∧
          cs = memberText level name value ++ ',' :: more := by
  change writeMembers level (_ :: _ :: _) = .ok cs ↔ _
  rw [writeMembers]
  · simp only [bind_eq_ok, pure_eq_ok, nameText, Except.ok.injEq, exists_eq_left', memberText]
    rfl
  · exact List.cons_ne_nil _ _

/-- A member is written as one with its name and its value, after a line end. -/
theorem exists_member (level : Nat) (name : String) (h : Spells cs v) :
    ∃ t : Member, newLine level ++ t.chars = memberText level name cs ∧
      ∀ before, t.insertInto before = Entries.insert (.text name) v before := by
  obtain ⟨ps, hps, rfl⟩ := exists_pieces_of_text name
  obtain ⟨⟨t, rfl, rfl⟩, -⟩ := h
  refine ⟨.mk ps [] [.space] t, ?_, fun before => rfl⟩
  rw [memberText, ← hps, Member.chars, List.append_assoc]
  rfl

theorem ne_carriageReturn_member (h : Spells cs v) (level : Nat) (name : String) :
    ∀ c ∈ memberText level name cs, c ≠ '\r' := by
  simp only [memberText, List.forall_mem_append, List.forall_mem_cons]
  exact ⟨⟨ne_carriageReturn_newLine level, (spells_text name).lines⟩, by decide, by decide, h.lines⟩

/-- Members are written one by one, each after a line end, and none takes the place of another. -/
theorem exists_members (before : List (String × Value)) {members : List (String × Value)}
    (hmembers : ∀ m ∈ members, IsSpelt m.2) (hne : members ≠ [])
    (hnames : ((before ++ members).map Prod.fst).Nodup)
    (h : writeMembers level (Entries.ofMembers members) = .ok cs) (gap : Gap) :
    (∃ t : Members, newLine level ++ t.chars = cs ++ (gap.chars ++ ['}']) ∧
        t.insertInto (Entries.ofMembers before) = Entries.ofMembers (before ++ members)) ∧
      ∀ c ∈ cs, c ≠ '\r' := by
  induction members generalizing before cs with
  | nil => exact absurd rfl hne
  | cons m members ih =>
    obtain ⟨name, v⟩ := m
    have hvalue := hmembers _ List.mem_cons_self
    have hfresh : name ∉ before.map Prod.fst := by
      rw [List.map_append, List.map_cons] at hnames
      exact fun hmem => (List.nodup_append.1 hnames).2.2 name hmem name List.mem_cons_self rfl
    have hinsert := Entries.insert_of_notMem hfresh v
    cases members with
    | nil =>
      obtain ⟨value, hwrite, rfl⟩ := writeMembers_singleton_eq_ok.1 h
      have hspells := hvalue level _ hwrite
      obtain ⟨t, hchars, hinto⟩ := exists_member level name hspells
      refine ⟨⟨.last t gap, ?_, ?_⟩, ne_carriageReturn_member hspells level name⟩
      · rw [Members.chars, ← hchars, List.append_assoc]
      · rw [Members.insertInto, hinto, hinsert]
    | cons m' members =>
      obtain ⟨value, hwrite, more, hmore, rfl⟩ := writeMembers_cons_cons_eq_ok.1 h
      have hspells := hvalue level _ hwrite
      obtain ⟨t, hchars, hinto⟩ := exists_member level name hspells
      have hsplit : before ++ (name, v) :: m' :: members =
          (before ++ [(name, v)]) ++ m' :: members := by simp
      rw [hsplit] at hnames
      obtain ⟨⟨ts, hts, hall⟩, hrest⟩ :=
        ih _ (fun m hm => hmembers m (List.mem_cons_of_mem _ hm)) (List.cons_ne_nil _ _) hnames
          hmore
      refine ⟨⟨.more t [] (lineGap level) ts, ?_, ?_⟩, ?_⟩
      · rw [Members.chars, chars_lineGap, hts, ← hchars]
        simp [Gap.chars]
      · rw [Members.insertInto, hinto, hinsert, hall, hsplit]
      · refine List.forall_mem_append.2 ⟨ne_carriageReturn_member hspells level name, ?_⟩
        exact List.forall_mem_cons.2 ⟨by decide, hrest⟩

/-! ### documents -/

/-- Brackets around what is written in lines have no carriage return. -/
theorem ne_carriageReturn_enclosed (h : ∀ c ∈ cs, c ≠ '\r') {first last : Char}
    (hfirst : first ≠ '\r') (hlast : last ≠ '\r') (level : Nat) :
    ∀ c ∈ first :: (cs ++ newLine level ++ [last]), c ≠ '\r' := by
  simp only [List.forall_mem_append, List.forall_mem_cons]
  exact ⟨hfirst, ⟨h, ne_carriageReturn_newLine level⟩, hlast, List.forall_mem_nil _⟩

theorem isSpelt_list {items : List Value} (h : ∀ v ∈ items, IsSpelt v) : IsSpelt (.list items) := by
  intro level cs hwrite
  cases items with
  | nil =>
    obtain rfl := Except.ok.inj hwrite
    exact ⟨⟨.noItems [], rfl, rfl⟩, by simp⟩
  | cons v vs =>
    rw [write] at hwrite
    obtain ⟨body, hbody, hcs⟩ := bind_eq_ok.1 hwrite
    obtain rfl := pure_eq_ok.1 hcs
    obtain ⟨⟨t, hchars, hvalues⟩, hlines⟩ :=
      exists_items h (List.cons_ne_nil v vs) hbody (lineGap level)
    refine ⟨⟨.list (lineGap (level + 1)) t, ?_, congrArg Value.list hvalues⟩, ?_⟩
    · rw [Spelling.chars, chars_lineGap, hchars, chars_lineGap, List.append_assoc]
    · exact ne_carriageReturn_enclosed hlines (by decide) (by decide) level

theorem isSpelt_map {members : List (String × Value)} (hnames : (members.map Prod.fst).Nodup)
    (h : ∀ m ∈ members, IsSpelt m.2) : IsSpelt (.map (Entries.ofMembers members)) := by
  intro level cs hwrite
  cases members with
  | nil =>
    obtain rfl := Except.ok.inj hwrite
    exact ⟨⟨.noMembers [], rfl, rfl⟩, by simp⟩
  | cons m members =>
    obtain ⟨body, hbody, hcs⟩ := bind_eq_ok.1 hwrite
    obtain rfl := pure_eq_ok.1 hcs
    obtain ⟨⟨t, hchars, hinto⟩, hlines⟩ :=
      exists_members [] h (List.cons_ne_nil m members) hnames hbody (lineGap level)
    refine ⟨⟨.object (lineGap (level + 1)) t, ?_, congrArg Value.map hinto⟩, ?_⟩
    · rw [Spelling.chars, chars_lineGap, hchars, chars_lineGap, List.append_assoc]
    · exact ne_carriageReturn_enclosed hlines (by decide) (by decide) level

/-- What is written of a value is a spelling of it. -/
theorem spells_of_write {v : Value} (hv : v.IsJson) : IsSpelt v := by
  induction hv with
  | null => exact fun level cs h => Except.ok.inj h ▸ spells_word .null
  | bool b =>
    intro level cs h
    obtain rfl := Except.ok.inj h
    cases b with
    | false => exact spells_word .false
    | true => exact spells_word .true
  | int i =>
    intro level cs h
    obtain ⟨s, hs, hcs⟩ := bind_eq_ok.1 h
    exact pure_eq_ok.1 hcs ▸ spells_int hs
  | float x => exact fun level cs h => Except.ok.inj h ▸ spells_float x
  | text s => exact fun level cs h => Except.ok.inj h ▸ spells_text s
  | list _ ih => exact isSpelt_list ih
  | map hnames _ ih => exact isSpelt_map hnames ih

/-- What is written of a value, with a line end after it, is read as the value. -/
theorem read_of_text {v : Value} {s : String} (hv : v.IsJson) (h : text v = .ok s) :
    read (s ++ "\n").toList = .ok v := by
  obtain ⟨cs, hwrite, hs⟩ := bind_eq_ok.1 h
  obtain rfl := pure_eq_ok.1 hs
  obtain ⟨⟨t, rfl, rfl⟩, -⟩ := spells_of_write hv 0 cs hwrite
  have hread := Document.read_chars ⟨[], t, [.lineFeed]⟩
  rw [String.toList_append, String.toList_ofList]
  exact hread

/-- In a file it has the same characters. -/
theorem chars_of_text {v : Value} {s : String} (hv : v.IsJson) (h : text v = .ok s) :
    (Content.text (s ++ "\n")).chars = .ok (s ++ "\n").toList := by
  obtain ⟨cs, hwrite, hs⟩ := bind_eq_ok.1 h
  obtain rfl := pure_eq_ok.1 hs
  have hlines := (spells_of_write hv 0 cs hwrite).lines
  rw [Content.chars, String.toList_append, String.toList_ofList,
    Content.unixLines_append_of_notMem hlines]
  rfl

end Json

end Storyboard
