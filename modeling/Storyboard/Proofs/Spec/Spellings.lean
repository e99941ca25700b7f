import Storyboard.Proofs.Spec.RoundTrip

/-!
# Storyboard.Proofs.Spec.Spellings

Fields of two words have two spellings.  To *respell* a document is to write, at any places one
likes, the spelling with an underscore where the one with a capital stands, and to leave the one
with a capital out where both stand.  A reader finds the same under every name afterwards, so a
respelled document is the same specification, or is refused with the same words:

* `Entries.get?_respell` — what is found in a mapping in which one field is respelled;
* `Value.read_onMap` — a reader that looks into mappings takes two mappings for the same if it
  takes their entries for the same;
* `….ofValue_respell` — each section reads the same from a respelled value.
-/

namespace Storyboard

open Spec.Field

/-! ## one mapping -/

namespace Entries

/-- The entries without those under a name. -/
def without (name : String) (entries : Entries) : Entries :=
  entries.filter fun e => !isName name e.1

/-- The entries with those under the second name under the first. -/
def rename (name spelling : String) (entries : Entries) : Entries :=
  entries.map fun e => if isName spelling e.1 then (.text name, e.2) else e

/-- The entries with one field respelled: the entry under the second spelling comes under the
first, and where the first is there already it is dropped. -/
def respell (name spelling : String) (entries : Entries) : Entries :=
  if (entries.get? name).isSome then entries.without spelling else entries.rename name spelling

/-- The entries with another value under a name, if there is one. -/
def adapt (name : String) (f : Value → Value) (entries : Entries) : Entries :=
  entries.map fun e => if isName name e.1 then (e.1, f e.2) else e

variable {name spelling other : String} {f : Value → Value} (entries : Entries)

theorem isName_text (s : String) : isName name (.text s) = (s == name) := rfl

theorem isName_of_ne {k : Value} (h : isName name k = true) (hne : other ≠ name) :
    isName other k = false := by
  rw [sameKey_of_isName h, isName_text]
  simpa using hne.symm

theorem get?_cons_entry (e : Value × Value) (rest : Entries) :
    get? (e :: rest) name = if isName name e.1 then some e.2 else get? rest name := by
  cases h : isName name e.1 <;> simp [get?, h]

theorem get?_adapt_self : (entries.adapt name f).get? name = (entries.get? name).map f := by
  induction entries with
  | nil => rfl
  | cons e rest ih =>
    rw [adapt, List.map_cons, ← adapt, get?_cons_entry, get?_cons_entry, ih]
    cases h : isName name e.1 <;> simp [h]

theorem get?_adapt_of_ne (hne : other ≠ name) :
    (entries.adapt name f).get? other = entries.get? other := by
  induction entries with
  | nil => rfl
  | cons e rest ih =>
    rw [adapt, List.map_cons, ← adapt, get?_cons_entry, get?_cons_entry, ih]
    cases h : isName name e.1 with
    | false => rfl
    | true => simp [isName_of_ne h hne]

theorem get?_without_self : (entries.without name).get? name = none := by
  rw [get?, Option.map_eq_none_iff, List.find?_eq_none]
  intro e he
  simpa using (List.mem_filter.1 he).2

theorem get?_without_of_ne (hne : other ≠ name) :
    (entries.without name).get? other = entries.get? other := by
  induction entries with
  | nil => rfl
  | cons e rest ih =>
    rw [get?_cons_entry]
    cases h : isName name e.1 with
    | false => rw [without, List.filter_cons_of_pos (by simp [h]), ← without, get?_cons_entry, ih]
    | true =>
      rw [without, List.filter_cons_of_neg (by simp [h]), ← without, ih, isName_of_ne h hne]
      rfl

theorem get?_rename_of_ne (hname : other ≠ name) (hspelling : other ≠ spelling) :
    (entries.rename name spelling).get? other = entries.get? other := by
  induction entries with
  | nil => rfl
  | cons e rest ih =>
    rw [rename, List.map_cons, ← rename, get?_cons_entry, get?_cons_entry, ih]
    cases h : isName spelling e.1 with
    | false => rfl
    | true => simp [isName_text, hname.symm, isName_of_ne h hspelling]

theorem get?_rename_spelling (hne : name ≠ spelling) :
    (entries.rename name spelling).get? spelling = none := by
  induction entries with
  | nil => rfl
  | cons e rest ih =>
    rw [rename, List.map_cons, ← rename, get?_cons_entry, ih]
    cases h : isName spelling e.1 <;> simp [isName_text, h, hne]

theorem get?_rename_name (hnone : entries.get? name = none) :
    (entries.rename name spelling).get? name = entries.get? spelling := by
  induction entries with
  | nil => rfl
  | cons e rest ih =>
    rw [get?_cons_entry] at hnone
    split at hnone
    · cases hnone
    · next hname =>
      rw [rename, List.map_cons, ← rename, get?_cons_entry, get?_cons_entry, ih hnone]
      cases h : isName spelling e.1 <;> simp [isName_text, hname]

/-- After a field is respelled nothing stands under its second spelling, its value stands under the
first, and all other fields are as they were. -/
theorem get?_respell (hne : name ≠ spelling) (other : String) :
    (entries.respell name spelling).get? other =
      if other = spelling then none
      else if other = name then (entries.get? name).or (entries.get? spelling)
      else entries.get? other := by
  unfold respell
  split
  · next hthere =>
    obtain ⟨v, hv⟩ := Option.isSome_iff_exists.1 hthere
    split
    · next h => rw [h, get?_without_self]
    · next hspelling =>
      rw [get?_without_of_ne entries hspelling]
      split
      · next h => rw [h, hv, Option.some_or]
      · rfl
  · next hmissing =>
    have hnone : entries.get? name = none := by simpa using hmissing
    split
    · next h => rw [h, get?_rename_spelling entries hne]
    · next hspelling =>
      split
      · next h => rw [h, get?_rename_name entries hnone, hnone, Option.none_or]
      · next hname => rw [get?_rename_of_ne entries hname hspelling]

/-! ## the fields that a section respells -/

/-- The entries with fields respelled, those whose second spelling stands at a chosen place. -/
def respellAt (chosen : Place → Bool) (place : Place) (pairs : List (String × String))
    (entries : Entries) : Entries :=
  pairs.foldl
    (fun es p => if chosen (.field place p.2) then es.respell p.1 p.2 else es) entries

/-- All spellings of some fields. -/
def spellings (pairs : List (String × String)) : List String := pairs.flatMap fun p => [p.1, p.2]

variable {chosen : Place → Bool} {place : Place} {pairs : List (String × String)}

theorem spellings_cons (p : String × String) (pairs : List (String × String)) :
    spellings (p :: pairs) = p.1 :: p.2 :: spellings pairs := rfl

/-- A field with one spelling is found as before. -/
theorem get?_respellAt (hnodup : (spellings pairs).Nodup) (hother : other ∉ spellings pairs) :
    (entries.respellAt chosen place pairs).get? other = entries.get? other := by
  induction pairs generalizing entries with
  | nil => rfl
  | cons p rest ih =>
    rw [spellings_cons] at hnodup hother
    simp only [List.nodup_cons, List.mem_cons, not_or] at hnodup hother
    obtain ⟨⟨hne, -⟩, -, hnodup⟩ := hnodup
    obtain ⟨hname, hspelling, hother⟩ := hother
    rw [respellAt, List.foldl_cons, ← respellAt, ih _ hnodup hother]
    split
    · rw [get?_respell entries hne, if_neg hspelling, if_neg hname]
    · rfl

/-- A field with two spellings is found under one of them as before. -/
theorem pick_respellAt {v : Value} (hnodup : (spellings pairs).Nodup)
    (hmem : (name, spelling) ∈ pairs) :
    (entries.respellAt chosen place pairs).pick name spelling v
      = entries.pick name spelling v := by
  induction pairs generalizing entries with
  | nil => cases hmem
  | cons p rest ih =>
    rw [spellings_cons] at hnodup
    have hrest := (List.nodup_cons.1 (List.nodup_cons.1 hnodup).2).2
    rw [respellAt, List.foldl_cons, ← respellAt]
    cases hmem with
    | head =>
      -- the field of this pair is respelled now and left alone later
      simp only [List.nodup_cons, List.mem_cons, not_or] at hnodup
      obtain ⟨⟨hne, hname⟩, hspelling, -⟩ := hnodup
      rw [pick, get?_respellAt _ hrest hname, get?_respellAt _ hrest hspelling, pick]
      split
      · rw [get?_respell entries hne, get?_respell entries hne, if_neg hne, if_pos rfl, if_pos rfl,
          Option.or_none]
      · rfl
    | tail _ hmem =>
      -- a later field is not touched now
      have hin : name ∈ spellings rest ∧ spelling ∈ spellings rest :=
        ⟨List.mem_flatMap.2 ⟨_, hmem, by simp⟩, List.mem_flatMap.2 ⟨_, hmem, by simp⟩⟩
      simp only [List.nodup_cons, List.mem_cons, not_or] at hnodup
      obtain ⟨⟨hne, hp⟩, hp', -⟩ := hnodup
      have hother {n : String} (hn : n ∈ spellings rest) : n ≠ p.1 ∧ n ≠ p.2 :=
        ⟨fun h => hp (h ▸ hn), fun h => hp' (h ▸ hn)⟩
      rw [ih _ hrest hmem, pick, pick]
      split
      · rw [get?_respell entries hne, get?_respell entries hne, if_neg (hother hin.1).2,
          if_neg (hother hin.1).1, if_neg (hother hin.2).2, if_neg (hother hin.2).1]
      · rfl

/-! What a reader of entries asks for. -/

theorem getD_respellAt {v : Value} (hnodup : (spellings pairs).Nodup)
    (hother : other ∉ spellings pairs) :
    (entries.respellAt chosen place pairs).getD other v = entries.getD other v := by
  rw [getD, get?_respellAt entries hnodup hother, getD]

theorem get_respellAt (hnodup : (spellings pairs).Nodup) (hother : other ∉ spellings pairs) :
    (entries.respellAt chosen place pairs).get other = entries.get other :=
  getD_respellAt entries hnodup hother

theorem getD_adapt_of_ne {v : Value} (hne : other ≠ name) :
    (entries.adapt name f).getD other v = entries.getD other v := by
  rw [getD, get?_adapt_of_ne entries hne, getD]

theorem get_adapt_of_ne (hne : other ≠ name) :
    (entries.adapt name f).get other = entries.get other :=
  getD_adapt_of_ne entries hne

theorem pick_adapt_of_ne {n : String} {v : Value} (hn : n ≠ name) (hother : other ≠ name) :
    (entries.adapt name f).pick n other v = entries.pick n other v := by
  rw [pick, get?_adapt_of_ne entries hn, get?_adapt_of_ne entries hother, pick]

omit entries in
theorem get_adapt_self (hnull : f .null = .null) (entries : Entries) :
    (entries.adapt name f).get name = f (entries.get name) := by
  rw [get, getD, get?_adapt_self, get, getD]
  cases entries.get? name with
  | none => exact hnull.symm
  | some v => rfl

end Entries

/-! ## readers of mappings and lists -/

namespace Value

/-- A mapping with its entries changed; nothing else is changed. -/
def onMap (f : Entries → Entries) (v : Value) : Value :=
  match v.opened with
  | .map entries => .map (f entries)
  | _ => v

/-- A list with its items changed; nothing else is changed. -/
def onList (f : List Value → List Value) (v : Value) : Value :=
  match v.opened with
  | .list items => .list (f items)
  | _ => v

theorem onList_null (f : List Value → List Value) : onList f .null = .null := rfl

variable {α : Type}

/-- A reader looks into mappings only: it takes a mapping that has to be opened for the mapping
that is found inside. -/
def Opens (read : Value → α) : Prop :=
  ∀ {v : Value} {entries : Entries}, v.opened = .map entries → read v = read (.map entries)

/-- Only rings have to be opened. -/
theorem opens_of_ring {read : Value → α}
    (h : ∀ {parts : List Value} {here : Nat} {entries : Entries},
      (ring parts here).opened = .map entries → read (.ring parts here) = read (.map entries)) :
    Opens read := by
  intro v entries hv
  cases v with
  | ring parts here => exact h hv
  | map entries => cases hv; rfl
  | _ => cases hv

/-- It is enough that a reader takes the entries for the same. -/
theorem read_onMap {read : Value → α} {f : Entries → Entries} (hopens : Opens read)
    (hf : ∀ entries, read (.map (f entries)) = read (.map entries)) (v : Value) :
    read (v.onMap f) = read v := by
  unfold onMap
  split
  · next entries h => rw [hopens h, hf]
  · rfl

theorem mapping_of_opened {place : Place} {v : Value} {entries : Entries}
    (h : v.opened = .map entries) : mapping place v = .ok entries := by
  rw [mapping, h]

theorem mappingOrNothing_of_opened {place : Place} {v : Value} {entries : Entries}
    (h : v.opened = .map entries) : mappingOrNothing place v = .ok entries := by
  rw [mappingOrNothing, isTruthy, h, mapping_of_opened h]
  cases entries <;> rfl

end Value

namespace Spec.Field

variable {α β : Type} {read : Place → Value → Except Fault α} {respell : Place → Value → Value}
  {place : Place} {v : Value}

theorem listOrNothing_of_opened {vs : List Value} (h : v.opened = .list vs) :
    listOrNothing place v = .ok vs := by
  rw [listOrNothing, Value.isTruthy, h]
  cases vs with
  | nil => rfl
  | cons v vs => rw [list, h]; rfl

/-- The items of a list, each respelled at its place; the first stands at number `i`. -/
def respellItems (respell : Place → Value → Value) (place : Place) : Nat → List Value → List Value
  | _, [] => []
  | i, v :: rest => respell (.item place i) v :: respellItems respell place (i + 1) rest

theorem items_respellItems (h : ∀ place v, read place (respell place v) = read place v) (i : Nat)
    (vs : List Value) : items read place i (respellItems respell place i vs) = items read place i vs := by
  induction vs generalizing i with
  | nil => rfl
  | cons v rest ih => rw [respellItems, items, h, ih, items]

/-- A list in which all items are respelled is the same list to a reader of items. -/
theorem listOrNothing_onList (h : ∀ place v, read place (respell place v) = read place v)
    (k : List α → Except Fault β) :
    (listOrNothing place (v.onList (respellItems respell place 0)) >>= fun vs =>
        items read place 0 vs >>= k)
      = listOrNothing place v >>= fun vs => items read place 0 vs >>= k := by
  unfold Value.onList
  split
  · next vs hvs =>
    rw [listOrNothing_of_opened hvs, listOrNothing_of_opened (Value.opened_list _), ok_bind, ok_bind,
      items_respellItems h]
  · rfl

end Spec.Field

/-! ## the sections -/

section Sections

variable (chosen : Place → Bool) (place : Place) (v : Value)

namespace Output

/-- The fields of two words of the section on encoding. -/
def pairs : List (String × String) := [("sample_rate", "sampleRate")]

def respell : Value → Value := Value.onMap (Entries.respellAt chosen (.root "output") pairs)

theorem ofValue_opens : Value.Opens ofValue := by
  intro v entries h
  simp only [ofValue, Value.mappingOrNothing_of_opened h, mappingOrNothing_map]

theorem read_respell : ofValue (respell chosen v) = ofValue v := by
  refine Value.read_onMap ofValue_opens (fun entries => ?_) v
  simp (disch := decide) only [ofValue, mappingOrNothing_map, ok_bind, Entries.getD_respellAt,
    Entries.pick_respellAt, pairs]

end Output

namespace Animation

/-- The fields of two words of an animation. -/
def pairs : List (String × String) :=
  [("enter_duration", "enterDuration"), ("exit_duration", "exitDuration")]

def respell : Value → Value := Value.onMap (Entries.respellAt chosen place pairs)

theorem ofValue_opens : Value.Opens (ofValue place) :=
  Value.opens_of_ring fun h => by simp only [ofValue, Value.mapping_of_opened h, mapping_map]

theorem read_respell : ofValue place (respell chosen place v) = ofValue place v := by
  refine Value.read_onMap (ofValue_opens place) (fun entries => ?_) v
  simp (disch := decide) only [ofValue, mapping_map, ok_bind, Entries.getD_respellAt,
    Entries.pick_respellAt, pairs]

end Animation

namespace TextStyle

/-- The fields of two words of a text style. -/
def pairs : List (String × String) :=
  [("outline_color", "outlineColor"), ("line_spacing", "lineSpacing")]

def respell : Value → Value := Value.onMap (Entries.respellAt chosen place pairs)

theorem ofValue_opens : Value.Opens (ofValue place) :=
  Value.opens_of_ring fun h => by simp only [ofValue, Value.mapping_of_opened h, mapping_map]

theorem read_respell : ofValue place (respell chosen place v) = ofValue place v := by
  refine Value.read_onMap (ofValue_opens place) (fun entries => ?_) v
  simp (disch := decide) only [ofValue, mapping_map, ok_bind, Entries.getD_respellAt,
    Entries.pick_respellAt, pairs]

end TextStyle

namespace Layer

/-- The fields of two words of a layer. -/
def pairs : List (String × String) := [("border_radius", "borderRadius")]

/-- A layer respelled, with its style and its animation. -/
def respellEntries (entries : Entries) : Entries :=
  ((entries.respellAt chosen place pairs).adapt "style"
      (TextStyle.respell chosen (.field place "style"))).adapt "animation"
    (Animation.respell chosen (.field place "animation"))

def respell : Value → Value := Value.onMap (respellEntries chosen place)

variable (entries : Entries)

theorem getD_respellEntries {name : String} {other : Value}
    (hname : name ∉ "style" :: "animation" :: Entries.spellings pairs) :
    (respellEntries chosen place entries).getD name other = entries.getD name other := by
  simp only [List.mem_cons, not_or] at hname
  obtain ⟨hstyle, hanimation, hpairs⟩ := hname
  rw [respellEntries, Entries.getD_adapt_of_ne _ hanimation, Entries.getD_adapt_of_ne _ hstyle,
    Entries.getD_respellAt _ (by decide) hpairs]

theorem get_respellEntries {name : String}
    (hname : name ∉ "style" :: "animation" :: Entries.spellings pairs) :
    (respellEntries chosen place entries).get name = entries.get name :=
  getD_respellEntries chosen place entries hname

theorem style_respellEntries :
    TextStyle.ofValue (.field place "style") ((respellEntries chosen place entries).get "style")
      = TextStyle.ofValue (.field place "style") (entries.get "style") := by
  rw [respellEntries, Entries.get_adapt_of_ne _ (by decide), Entries.get_adapt_self rfl,
    Entries.get_respellAt _ (by decide) (by decide), TextStyle.read_respell]

theorem animation_respellEntries :
    Animation.ofValue (.field place "animation")
        ((respellEntries chosen place entries).get "animation")
      = Animation.ofValue (.field place "animation") (entries.get "animation") := by
  rw [respellEntries, Entries.get_adapt_self rfl, Entries.get_adapt_of_ne _ (by decide),
    Entries.get_respellAt _ (by decide) (by decide), Animation.read_respell]

theorem radius_respellEntries {other : Value} :
    (respellEntries chosen place entries).pick "border_radius" "borderRadius" other
      = entries.pick "border_radius" "borderRadius" other := by
  rw [respellEntries, Entries.pick_adapt_of_ne _ (by decide) (by decide),
    Entries.pick_adapt_of_ne _ (by decide) (by decide),
    Entries.pick_respellAt _ (by decide) (by decide)]

theorem timing_respellEntries :
    timing place (respellEntries chosen place entries) = timing place entries := by
  simp (disch := decide) only [timing, getD_respellEntries, get_respellEntries]

variable (start duration : Value)

theorem text_respellEntries :
    TextLayer.ofEntries place (respellEntries chosen place entries) start duration
      = TextLayer.ofEntries place entries start duration := by
  simp (disch := decide) only [TextLayer.ofEntries, get_respellEntries, style_respellEntries,
    animation_respellEntries]

theorem image_respellEntries :
    ImageLayer.ofEntries place (respellEntries chosen place entries) start duration
      = ImageLayer.ofEntries place entries start duration := by
  simp (disch := decide) only [ImageLayer.ofEntries, get_respellEntries, getD_respellEntries,
    animation_respellEntries]

theorem video_respellEntries :
    VideoLayer.ofEntries place (respellEntries chosen place entries) start duration
      = VideoLayer.ofEntries place entries start duration := by
  simp (disch := decide) only [VideoLayer.ofEntries, get_respellEntries, getD_respellEntries]

theorem shape_respellEntries :
    ShapeLayer.ofEntries place (respellEntries chosen place entries) start duration
      = ShapeLayer.ofEntries place entries start duration := by
  simp (disch := decide) only [ShapeLayer.ofEntries, get_respellEntries, getD_respellEntries,
    radius_respellEntries]

theorem ofValue_opens : Value.Opens (ofValue place) := by
  intro v entries h
  simp only [ofValue, Value.mapping_of_opened h, mapping_map]

theorem read_respell : ofValue place (respell chosen place v) = ofValue place v := by
  refine Value.read_onMap (ofValue_opens place) (fun entries => ?_) v
  simp (disch := decide) only [ofValue, mapping_map, ok_bind, timing_respellEntries,
    get_respellEntries, text_respellEntries, image_respellEntries, video_respellEntries,
    shape_respellEntries]

end Layer

namespace Scene

/-- A scene with its layers respelled. -/
def respell : Value → Value :=
  Value.onMap (Entries.adapt "layers"
    (Value.onList (respellItems (Layer.respell chosen) (.field place "layers") 0)))

theorem ofValue_opens : Value.Opens (ofValue place) := by
  intro v entries h
  simp only [ofValue, Value.mapping_of_opened h, mapping_map]

theorem read_respell : ofValue place (respell chosen place v) = ofValue place v := by
  refine Value.read_onMap (ofValue_opens place) (fun entries => ?_) v
  simp (disch := decide) only [ofValue, mapping_map, ok_bind,
    Entries.get_adapt_of_ne, Entries.get_adapt_self (Value.onList_null _),
    listOrNothing_onList (Layer.read_respell chosen)]

/-- Scenes that are respelled one by one are read as before, with the same ids in use. -/
theorem readAll_respellItems (before : List String) (i : Nat) (vs : List Value) :
    readAll place before i (respellItems (respell chosen) place i vs)
      = readAll place before i vs := by
  induction vs generalizing before i with
  | nil => rfl
  | cons v rest ih => simp only [respellItems, readAll, read_respell, ih]

end Scene

namespace AudioTrack

/-- The fields of two words of a track. -/
def pairs : List (String × String) := [("fade_in", "fadeIn"), ("fade_out", "fadeOut")]

def respell : Value → Value := Value.onMap (Entries.respellAt chosen place pairs)

theorem ofValue_opens : Value.Opens (ofValue place) := by
  intro v entries h
  simp only [ofValue, Value.mapping_of_opened h, mapping_map]

theorem read_respell : ofValue place (respell chosen place v) = ofValue place v := by
  refine Value.read_onMap (ofValue_opens place) (fun entries => ?_) v
  simp (disch := decide) only [ofValue, timing, mapping_map, ok_bind, Entries.getD_respellAt,
    Entries.get_respellAt, Entries.pick_respellAt, pairs]

end AudioTrack

namespace Audio

/-- The section on sound with its tracks respelled. -/
def respell : Value → Value :=
  Value.onMap (Entries.adapt "tracks"
    (Value.onList (respellItems (AudioTrack.respell chosen) (.field (.root "audio") "tracks") 0)))

theorem ofValue_opens : Value.Opens ofValue := by
  intro v entries h
  simp only [ofValue, Value.mappingOrNothing_of_opened h, mappingOrNothing_map]

theorem read_respell : ofValue (respell chosen v) = ofValue v := by
  refine Value.read_onMap ofValue_opens (fun entries => ?_) v
  simp (disch := decide) only [ofValue, mappingOrNothing_map, ok_bind,
    Entries.get_adapt_of_ne, Entries.get_adapt_self (Value.onList_null _),
    listOrNothing_onList (AudioTrack.read_respell chosen)]

end Audio

namespace SubtitleStyle

/-- The fields of two words of a subtitle style. -/
def pairs : List (String × String) :=
  [("outline_color", "outlineColor"), ("margin_v", "marginV")]

def respell : Value → Value := Value.onMap (Entries.respellAt chosen place pairs)

theorem ofValue_opens : Value.Opens (ofValue place) :=
  Value.opens_of_ring fun h => by simp only [ofValue, Value.mapping_of_opened h, mapping_map]

theorem read_respell : ofValue place (respell chosen place v) = ofValue place v := by
  refine Value.read_onMap (ofValue_opens place) (fun entries => ?_) v
  simp (disch := decide) only [ofValue, mapping_map, ok_bind, Entries.getD_respellAt,
    Entries.pick_respellAt, pairs]

end SubtitleStyle

namespace Subtitle

/-- A subtitle with its style respelled. -/
def respell : Value → Value :=
  Value.onMap (Entries.adapt "style" (SubtitleStyle.respell chosen (.field place "style")))

theorem ofValue_opens : Value.Opens (ofValue place) := by
  intro v entries h
  simp only [ofValue, Value.mapping_of_opened h, mapping_map]

theorem read_respell : ofValue place (respell chosen place v) = ofValue place v := by
  refine Value.read_onMap (ofValue_opens place) (fun entries => ?_) v
  simp (disch := decide) only [ofValue, mapping_map, ok_bind,
    Entries.get_adapt_of_ne, Entries.get_adapt_self (f := SubtitleStyle.respell chosen _) rfl,
    SubtitleStyle.read_respell]

end Subtitle

namespace ThumbnailSource

/-- The fields of two words of the source of a thumbnail. -/
def pairs : List (String × String) := [("scene_id", "sceneId")]

def respell : Value → Value := Value.onMap (Entries.respellAt chosen place pairs)

theorem ofValue_opens : Value.Opens (ofValue place) :=
  Value.opens_of_ring fun h => by simp only [ofValue, Value.mapping_of_opened h, mapping_map]

theorem read_respell : ofValue place (respell chosen place v) = ofValue place v := by
  refine Value.read_onMap (ofValue_opens place) (fun entries => ?_) v
  simp (disch := decide) only [ofValue, mapping_map, ok_bind, Entries.getD_respellAt,
    Entries.get_respellAt, Entries.pick_respellAt, pairs]

end ThumbnailSource

namespace Thumbnail

/-- The section on the thumbnail with its source and its overlays respelled. -/
def respell : Value → Value :=
  Value.onMap fun entries =>
    (entries.adapt "source" (ThumbnailSource.respell chosen (.field (.root "thumbnail") "source"))).adapt
      "overlays" (Value.onList
        (respellItems (Layer.respell chosen) (.field (.root "thumbnail") "overlays") 0))

theorem ofValue_opens : Value.Opens ofValue := by
  intro v entries h
  simp only [ofValue, Value.mappingOrNothing_of_opened h, mappingOrNothing_map]

theorem read_respell : ofValue (respell chosen v) = ofValue v := by
  refine Value.read_onMap ofValue_opens (fun entries => ?_) v
  simp (disch := decide) only [ofValue, mappingOrNothing_map, ok_bind,
    Entries.getD_adapt_of_ne, Entries.get_adapt_of_ne,
    Entries.get_adapt_self (f := ThumbnailSource.respell chosen _) rfl,
    Entries.get_adapt_self (Value.onList_null _), ThumbnailSource.read_respell,
    listOrNothing_onList (Layer.read_respell chosen)]

end Thumbnail

namespace Specification

/-- The entries at the top with all sections respelled. -/
def respellEntries (entries : Entries) : Entries :=
  ((((entries.adapt "scenes"
    (Value.onList (respellItems (Scene.respell chosen) (.root "scenes") 0))).adapt "output"
    (Output.respell chosen)).adapt "audio"
    (Audio.respell chosen)).adapt "subtitles"
    (Value.onList (respellItems (Subtitle.respell chosen) (.root "subtitles") 0))).adapt "thumbnail"
    (Thumbnail.respell chosen)

/-- A document respelled at the chosen places: a place is chosen by the spelling with a capital. -/
def respell : Value → Value := Value.onMap (respellEntries chosen)

theorem scenesOf_respellEntries (entries : Entries) :
    scenesOf (respellEntries chosen entries) = scenesOf entries := by
  have hscenes : (respellEntries chosen entries).get "scenes"
      = Value.onList (respellItems (Scene.respell chosen) (.root "scenes") 0)
          (entries.get "scenes") := by
    simp (disch := decide) only [respellEntries, Entries.get_adapt_of_ne,
      Entries.get_adapt_self (Value.onList_null _)]
  rw [scenesOf, scenesOf, hscenes, Value.onList]
  cases h : (entries.get "scenes").opened with
  | list vs =>
    cases vs with
    | nil => rfl
    | cons v rest => exact Scene.readAll_respellItems chosen (.root "scenes") [] 0 (v :: rest)
  | _ => simp only [h]

/-- A document that is respelled anywhere is the same specification, or is refused or fails for the
same reason. -/
theorem ofValue_respell (chosen : Place → Bool) (v : Value) :
    ofValue (respell chosen v) = ofValue v := by
  refine Value.read_onMap (fun h => by rw [ofValue, h]; rfl) (fun entries => ?_) v
  show ofEntries (respellEntries chosen entries) = ofEntries entries
  rw [ofEntries, scenesOf_respellEntries]
  simp (disch := decide) only [ofEntries, respellEntries, Entries.getD_adapt_of_ne,
    Entries.get_adapt_of_ne, Entries.get_adapt_self (f := Output.respell chosen) rfl,
    Entries.get_adapt_self (f := Audio.respell chosen) rfl,
    Entries.get_adapt_self (f := Thumbnail.respell chosen) rfl,
    Entries.get_adapt_self (Value.onList_null _), Output.read_respell, Audio.read_respell,
    Thumbnail.read_respell, listOrNothing_onList (Subtitle.read_respell chosen)]

/-- Two fields of one animation, one of them written in both ways, and one of a track, of which
another is at a place that is not chosen. -/
example :
    respell (fun p => p != .field (.item (.field (.root "audio") "tracks") 0) "fadeOut")
      (.map [("scenes", .list [.map [("layers", .list [.map [("animation", .map
          [("enterDuration", 1), ("exitDuration", 2), ("exit_duration", 3)])]])]]),
        ("audio", .map [("tracks", .list [.map [("fadeIn", 4), ("fadeOut", 5)]])])])
      = .map [("scenes", .list [.map [("layers", .list [.map [("animation", .map
          [("enter_duration", 1), ("exit_duration", 3)])]])]]),
        ("audio", .map [("tracks", .list [.map [("fade_in", 4), ("fadeOut", 5)]])])] := by
  rfl

end Specification

end Sections

end Storyboard
