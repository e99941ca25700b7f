import Storyboard.Graph.Pad
import Storyboard.Proofs.Number.Digits

/-!
# Storyboard.Proofs.Graph.Label

The labels of pads.  A label is a word with numbers in it, and every kind of pad has a word
of its own.  Taking the numbers out of a label leaves the word, so a label tells the kind;
no number holds an underscore, so it tells the numbers too, and `scene1_layer11` is never
taken for `scene11_layer1`:

* `label_injective` — pads with one label are one pad.
-/

namespace Storyboard

open Number

namespace Pad

/-! ## kinds -/

/-- The kinds of pads that a graph is compiled with. -/
inductive Kind
  | input (stream : Stream)
  | background
  | layer
  | media
  | transition
  | track
  | mix
  | silence
  deriving DecidableEq

/-- The label of a kind of pad without the numbers in it. -/
def Kind.word : Kind → String
  | .input .video => ":v"
  | .input .audio => ":a"
  | .background => "scene_bg"
  | .layer => "scene_layer"
  | .media => "scene_media"
  | .transition => "xfade"
  | .track => "audio"
  | .mix => "audioMix"
  | .silence => "audioSilence"

/-- The kind of a pad; a pad that is known by its label alone has none. -/
def kind? : Pad → Option Kind
  | .input _ stream => some (.input stream)
  | .background _ => some .background
  | .layer _ _ => some .layer
  | .media _ _ => some .media
  | .transition _ => some .transition
  | .track _ => some .track
  | .mix => some .mix
  | .silence => some .silence
  | .named _ => none

/-- Whether a pad is a stream of an input file. -/
def isInput : Pad → Bool
  | .input _ _ => true
  | _ => false

theorem Kind.word_injective {k k' : Kind} (h : k.word = k'.word) : k = k' := by
  rcases k with ⟨_ | _⟩ | _ <;> rcases k' with ⟨_ | _⟩ | _ <;>
    first | rfl | exact absurd h (by decide)

/-- A label without its numbers is the word of its kind. -/
theorem filter_label {p : Pad} {k : Kind} (hk : p.kind? = some k) :
    p.label.toList.filter (fun c => !inInteger c) = k.word.toList := by
  cases p with
  | input i stream =>
    cases hk
    simp only [label, String.toList_append, List.filter_append, filter_repr]
    cases stream <;> decide
  | background i =>
    cases hk
    simp only [label, String.toList_append, List.filter_append, filter_repr]
    decide
  | layer i j | media i j =>
    cases hk
    simp only [label, String.toList_append, List.filter_append, filter_repr]
    decide
  | transition i | track i =>
    cases hk
    simp only [label, String.toList_append, List.filter_append, filter_repr]
    decide
  | mix | silence => cases hk; decide
  | named text => cases hk

theorem kind?_eq_of_label_eq {p q : Pad} (hp : p.kind?.isSome = true) (hq : q.kind?.isSome = true)
    (h : p.label = q.label) : p.kind? = q.kind? := by
  obtain ⟨k, hk⟩ := Option.isSome_iff_exists.1 hp
  obtain ⟨k', hk'⟩ := Option.isSome_iff_exists.1 hq
  have hword : k.word.toList = k'.word.toList := by
    rw [← filter_label hk, ← filter_label hk', h]
  rw [hk, hk', Kind.word_injective (String.toList_inj.1 hword)]

/-! ## a label tells its pad -/

/-- The number before an underscore ends at the underscore. -/
theorem repr_append_underscore_inj {i i' : Int} {cs cs' : List Char}
    (h : i.repr.toList ++ '_' :: cs = i'.repr.toList ++ '_' :: cs') : i = i' ∧ cs = cs' := by
  have hbefore (k : Int) (ds : List Char) :
      (k.repr.toList ++ '_' :: ds).takeWhile (· ≠ '_') = k.repr.toList := by
    rw [List.takeWhile_append_of_pos]
    · simp
    · intro c hc
      simpa using fun hc' : c = '_' => notMem_repr k (by decide) (hc' ▸ hc)
  have hrepr : i.repr.toList = i'.repr.toList := by rw [← hbefore i cs, h, hbefore]
  have hi : i = i' := repr_injective (String.toList_inj.1 hrepr)
  rw [hi] at h
  exact ⟨hi, by simpa using h⟩

theorem label_injective {p q : Pad} (hp : p.kind?.isSome = true) (hq : q.kind?.isSome = true)
    (h : p.label = q.label) : p = q := by
  have hkind : p.kind? = q.kind? := kind?_eq_of_label_eq hp hq h
  have hlist : p.label.toList = q.label.toList := by rw [h]
  -- pads of different kinds are gone after this, so one case remains for each kind
  cases p <;> cases q <;> simp [kind?] at hkind
  case input.input k s k' s' =>
    simp only [label, hkind, String.toList_append] at hlist
    have hrepr : k.repr.toList = k'.repr.toList :=
      List.append_cancel_right (List.append_cancel_right hlist)
    rw [hkind, repr_injective (String.toList_inj.1 hrepr)]
  case background.background i i' =>
    simp only [label, String.toList_append] at hlist
    have hrepr : i.repr.toList = i'.repr.toList :=
      List.append_cancel_left (List.append_cancel_right hlist)
    rw [repr_injective (String.toList_inj.1 hrepr)]
  case layer.layer i j i' j' =>
    simp only [label, String.toList_append, List.append_assoc] at hlist
    obtain ⟨rfl, hlayer⟩ := repr_append_underscore_inj (List.append_cancel_left hlist)
    have hrepr : j.repr.toList = j'.repr.toList := by simpa using hlayer
    rw [repr_injective (String.toList_inj.1 hrepr)]
  case media.media i j i' j' =>
    simp only [label, String.toList_append, List.append_assoc] at hlist
    obtain ⟨rfl, hmedia⟩ := repr_append_underscore_inj (List.append_cancel_left hlist)
    have hrepr : j.repr.toList = j'.repr.toList := by simpa using hmedia
    rw [repr_injective (String.toList_inj.1 hrepr)]
  case transition.transition i i' =>
    simp only [label, String.toList_append] at hlist
    rw [repr_injective (String.toList_inj.1 (List.append_cancel_left hlist))]
  case track.track i i' =>
    simp only [label, String.toList_append] at hlist
    rw [repr_injective (String.toList_inj.1 (List.append_cancel_left hlist))]
  case mix.mix => rfl
  case silence.silence => rfl
  case named.named => cases hp

end Pad

end Storyboard
