import Storyboard.Number.Extended
import Storyboard.Value.Stamp

/-!
# Storyboard.Value

Plain data, as a document holds it: the absent value, truth values, numbers of four
kinds, texts, stamps, lists and mappings, and what only a tag can ask for: bytes, pairs and
sets.  A mapping keeps its entries in the order of
their first insertion; a key inserted again takes the new value at its old place
(`insert`).

A list or a mapping can be part of itself.  Such a value is a *ring*: some lists and
mappings by number, in which a number stands wherever one of them is met again.  To look
into a value is to open it (`opened`); a ring is opened one step at a time, and every other
value is open.
-/

namespace Storyboard

/-- A plain value. -/
inductive Value
  | null
  | bool (b : Bool)
  | int (i : Int)
  | float (x : Double)
  | decimal (d : Decimal)
  | ratio (q : Rat)
  | text (s : String)
  | stamp (t : Stamp)
  | bytes (bs : List UInt8)
  /-- A key and its value in a list of pairs. -/
  | pair (key value : Value)
  | set (keys : List Value)
  | list (items : List Value)
  | map (entries : List (Value × Value))
  /-- The list or mapping with the number `here` among the parts of a ring. -/
  | ring (parts : List Value) (here : Nat)
  /-- In a part of a ring: the part with this number, which is a list or a mapping. -/
  | again (number : Nat) (isMap : Bool)

instance : Inhabited Value := ⟨.null⟩

/-- The entries of a mapping. -/
abbrev Entries := List (Value × Value)

instance (n : Nat) : OfNat Value n := ⟨.int n⟩

instance : OfScientific Value := ⟨fun c below e => .float (OfScientific.ofScientific c below e)⟩

instance : Coe String Value := ⟨.text⟩

namespace Value

/-- The number that a value of a mapping's key, or of a comparison, counts as; truth
values count as zero and one. -/
def extended? : Value → Option Extended
  | .bool b => some (.ofInt (if b then 1 else 0))
  | .int i => some (.ofInt i)
  | .float x => some (.ofDouble x)
  | _ => none

/-- Whether two keys are the same key: equal numbers of any kind, equal texts, equal
stamps.  Lists and mappings are no keys. -/
def sameKey : Value → Value → Bool
  | .null, .null => true
  | .text s, .text s' => s == s'
  | .stamp t, .stamp t' => t == t'
  | .bytes bs, .bytes bs' => bs == bs'
  | k, k' =>
    match k.extended?, k'.extended? with
    | some .nan, some .nan => true
    | some x, some x' => x.eqv x'
    | _, _ => false

/-- A value in a part of a ring, seen from outside the ring. -/
def within (parts : List Value) : Value → Value
  | .again number _ => .ring parts number
  | v => v

/-- A part of a ring, with other values in place of what it holds. -/
def mapParts (f : Value → Value) : Value → Value
  | .list items => .list (items.map fun
      | .pair key value => .pair (f key) (f value)
      | item => f item)
  | .map entries => .map (entries.map fun e => (e.1, f e.2))
  | v => v

/-- A value that can be looked into. -/
def opened : Value → Value
  | .ring parts here => (parts.getD here .null).mapParts (within parts)
  | v => v

@[simp] theorem opened_list (items : List Value) : opened (.list items) = .list items := rfl

/-- Whether a value counts as present: `null`, `false`, zeros, and empty texts, lists and
mappings do not. -/
def isTruthy (v : Value) : Bool :=
  match v.opened with
  | .null => false
  | .bool b => b
  | .int i => i != 0
  | .float x => !x.isZero
  | .decimal (.finite _ c _) => c != 0
  | .ratio q => q != 0
  | .text s => s != ""
  | .bytes bs => !bs.isEmpty
  | .set keys => !keys.isEmpty
  | .list items => !items.isEmpty
  | .map entries => !entries.isEmpty
  | _ => true

end Value

namespace Entries

/-- Whether a key is the name `name`. -/
def isName (name : String) : Value → Bool
  | .text s => s == name
  | _ => false

/-- The value under a name. -/
def get? (entries : Entries) (name : String) : Option Value :=
  (entries.find? fun e => isName name e.1).map Prod.snd

/-- The value under a name, or another if there is none. -/
def getD (entries : Entries) (name : String) (other : Value) : Value :=
  (entries.get? name).getD other

/-- The value under a name, or `null`. -/
def get (entries : Entries) (name : String) : Value := entries.getD name .null

/-- The entries with a value under a key: at the key's place if it has one, else at the
end. -/
def insert (key value : Value) : Entries → Entries
  | [] => [(key, value)]
  | (k, v) :: rest =>
    if k.sameKey key then (k, value) :: rest else (k, v) :: insert key value rest

theorem sameKey_of_isName {k : Value} {name : String} (h : isName name k = true) :
    k = .text name := by
  cases k <;> simp_all [isName]

end Entries

/-- The entries of a mapping, none of any other value. -/
def Value.entries? : Value → Option Entries
  | .map entries => some entries
  | _ => none

end Storyboard
