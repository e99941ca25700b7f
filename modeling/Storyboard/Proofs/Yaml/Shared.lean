import Storyboard.Proofs.Yaml.Spelling

/-!
# Storyboard.Proofs.Yaml.Shared

The spellings that mean the same in JSON and in YAML: no pair of surrogates is written as
two escapes, and no exponent stands without a point or without a sign.

* `Json.Spelling.isShared` — whether a spelling is one of them;
* `Json.Spelling.value_flow` — then its values in both languages are the same.
-/

namespace Storyboard.Json

open Yaml

/-- Whether a word is a value of strict JSON. -/
def Word.isStrict : Word → Bool
  | .null | .true | .false => Bool.true
  | _ => Bool.false

/-- Whether a string names no pair of surrogates. -/
def Pieces.isPairless : Pieces → Bool
  | .code _ _ _ _ high _ :: .code a b c d low h :: ps =>
    !(isHigh high && isLow low) && isPairless (.code a b c d low h :: ps)
  | _ :: ps => isPairless ps
  | [] => true

mutual

/-- Whether all parts of a spelling mean the same in both languages. -/
def Spelling.isShared : Spelling → Bool
  | .word w => w.isStrict
  | .number n _ _ => n.isReal || n.isInteger
  | .string s => s.isPairless
  | .noItems _ | .noMembers _ => true
  | .list _ items => items.isShared
  | .object _ members => members.isShared

/-- The same for items. -/
def Items.isShared : Items → Bool
  | .last item _ => item.isShared
  | .more item _ _ items => item.isShared && items.isShared

/-- The same for a member. -/
def Member.isShared : Member → Bool
  | .mk name _ _ value => name.isPairless && value.isShared

/-- The same for members. -/
def Members.isShared : Members → Bool
  | .last member _ => member.isShared
  | .more member _ _ members => member.isShared && members.isShared

end

theorem Word.yamlValue_of_isStrict {w : Word} (h : w.isStrict = Bool.true) :
    w.yamlValue = w.value := by
  cases w <;> first | rfl | simp [Word.isStrict] at h

theorem Literal.yamlValue_of_isShared {n : Literal} (h : (n.isReal || n.isInteger) = true)
    (v : Value) : n.yamlValue v = v := by
  rw [yamlValue, if_pos h]

theorem Pieces.yamlChars_of_isPairless {ps : Pieces} (h : ps.isPairless = true) :
    ps.yamlChars = ps.meaning := by
  induction ps using Pieces.meaning.induct with
  | case1 => rfl
  | case2 c hc ps ih => exact congrArg _ (ih h)
  | case3 letter c hc ps ih => exact congrArg _ (ih h)
  | case4 a b c d high hhigh a' b' c' d' low hlow ps hpair ih =>
    simp [isPairless, hpair] at h
  | case5 a b c d high hhigh a' b' c' d' low hlow ps hpair ih =>
    simp only [isPairless, Bool.and_eq_true] at h
    rw [meaning, if_neg hpair, ← ih h.2]
    rfl
  | case6 a b c d n hn ps hne ih =>
    have hps : isPairless ps = true := by
      rw [isPairless] at h
      · exact h
      · exact fun _ _ _ _ _ _ _ _ _ _ _ _ _ _ => hne _ _ _ _ _ _ _
    rw [meaning, ← ih hps]
    · rfl
    · exact hne

mutual

/-- Such a spelling has the same value in both languages. -/
theorem Spelling.value_flow (t : Spelling) (h : t.isShared = true) : t.flow.value = t.value := by
  match t with
  | .word w => exact Word.yamlValue_of_isStrict h
  | .number n v _ => exact Literal.yamlValue_of_isShared h v
  | .string s =>
    exact congrArg (fun cs => Value.text (String.ofList cs)) (Pieces.yamlChars_of_isPairless h)
  | .noItems _ => rfl
  | .list _ items => exact congrArg Value.list (items.itemValues_flows h)
  | .noMembers _ => rfl
  | .object _ members => exact congrArg Value.map (members.insertAll_flows h [])

theorem Items.itemValues_flows (items : Items) (h : items.isShared = true) :
    Flow.itemValues items.flows = items.values := by
  match items with
  | .last item _ => exact congrArg (fun v => [v]) (item.value_flow h)
  | .more item _ _ items =>
    simp only [Items.isShared, Bool.and_eq_true] at h
    simp only [Items.flows, Flow.itemValues, Items.values, item.value_flow h.1,
      items.itemValues_flows h.2]

theorem Member.insert_flow (member : Member) (h : member.isShared = true) (before : Entries) :
    Entries.insert (.text (String.ofList member.flow.1)) member.flow.2.value before =
      member.insertInto before := by
  match member with
  | .mk name _ _ value =>
    simp only [Member.isShared, Bool.and_eq_true] at h
    simp only [Member.flow, Member.insertInto, Pieces.yamlChars_of_isPairless h.1,
      value.value_flow h.2]
    rfl

theorem Members.insertAll_flows (members : Members) (h : members.isShared = true)
    (before : Entries) :
    (Flow.entryValues members.flows).foldl (fun es e => Entries.insert e.1 e.2 es) before =
      members.insertInto before := by
  match members with
  | .last member _ => exact member.insert_flow h before
  | .more member _ _ members =>
    simp only [Members.isShared, Bool.and_eq_true] at h
    simp only [Members.flows, Flow.entryValues, List.foldl_cons, Members.insertInto,
      ← member.insert_flow h.1 before]
    exact members.insertAll_flows h.2 _

end

end Storyboard.Json
