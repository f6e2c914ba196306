import DebrisDisk.Document.Codec

/-!
# Choices in documents

A choice between alternatives is written in one of three ways. The name of the alternative may stand
alone or as the only key of an object; it may stand among the fields of the alternative, under a key
of its own; or name and value stand side by side, each under its own key.

In the last two ways the key of the name may come after others. What comes before it is then read
whole first, so a fault of the text in it is met before a fault of its shape.

## Main definitions

* `Alternative`, `Codec.choice`, `Codec.named`: the name alone, or in front of the value.
* `Variant`, `Codec.tagged`: the name among the fields.
* `Codec.paired`: the name beside the value.
-/

namespace DebrisDisk
open Document

namespace Codec
variable {α β γ ρ σ : Type}

/-! ## Choices written by name -/

/-- One alternative of a choice. -/
structure Alternative (α σ : Type) where
  name : String
  /-- What is written beside the name of a value of this alternative: a document or nothing. -/
  encode : σ → Option (Option (Document α))
  /-- The value when the name stands alone. -/
  alone : Option σ
  /-- The value when a document stands beside the name. -/
  decode : Nat → Document α → Except Fault σ
  /-- The second document beside the name is the first, with any entries left out that hold their
  default. -/
  abridges : Document α → Document α → Prop

/-- An alternative without parts, recognised by `is`; beside its name it admits `null` alone. -/
def Alternative.unit (name : String) (x : σ) (is : σ → Bool) : Alternative α σ where
  name
  encode y := if is y then some none else none
  alone := some x
  decode
    | _, .null => .ok x
    | _, d => .error d.mismatch
  abridges d d' := d' = d

/-- An alternative that holds one value. -/
def Alternative.holding (name : String) (c : Codec α γ) (inject : γ → σ) (project : σ → Option γ) :
    Alternative α σ where
  name
  encode y := (project y).map fun x => some (c.encode x)
  alone := none
  decode depth d := inject <$> c.decode depth d
  abridges := c.abridges

/-- What may follow the only entry of an object. -/
def closing (rest : List (Option String × Document α)) (tail : Option Break) : Except Fault Unit :=
  match rest, tail with
  | [], none => .ok ()
  | [], some b => .error b.strict
  | _ :: _, _ => .error .malformed

/-- Reads a choice: a name, or an object whose one key is a name. -/
def decodeChoice (alternatives : List (Alternative α σ)) (depth : Nat) :
    Document α → Except Fault σ
  | .string s =>
    match alternatives.find? (·.name == s) with
    | some a => match a.alone with
      | some x => .ok x
      | none => .error .mismatch
    | none => .error .mismatch
  | .object [] tail => do
    let _ ← enter depth
    match tail with
    | some b => .error b.strict
    | none => .error .malformed
  | .object ((none, _) :: _) _ => .error .malformed
  | .object ((some key, d) :: rest) tail => do
    let depth ← enter depth
    match alternatives.find? (·.name == key) with
    | none => .error .mismatch
    | some a =>
      let x ← a.decode depth d
      closing rest tail
      return x
  | .broken b => .error b.strict
  | _ => .error .malformed

/-- The name of a value's alternative, and what is written beside it. -/
def nameOf (alternatives : List (Alternative α σ)) (x : σ) :
    Option (String × Option (Document α)) :=
  alternatives.findSome? fun a => (a.encode x).map fun value => (a.name, value)

/-- A choice between alternatives, written by their names. -/
def choice (alternatives : List (Alternative α σ)) : Codec α σ where
  encode x :=
    match nameOf alternatives x with
    | some (name, none) => .string name
    | some (name, some value) => .ofEntries [(name, value)]
    | none => .null
  decode depth d := decodeChoice alternatives depth d
  abridges
    | .object [(some key, d)] none, d' => ∃ a value,
      alternatives.find? (·.name == key) = some a ∧ a.abridges d value ∧
        d' = .object [(some key, value)] none
    | d, d' => d' = d

/-- A choice between values without parts, each with its name. -/
def named [BEq σ] (names : List (String × σ)) : Codec α σ :=
  choice (names.map fun (name, x) => .unit name x (· == x))

/-! ## Choices written as records with a tag -/

/-- One alternative of a choice whose name stands among the fields. -/
structure Variant (α σ : Type) where
  name : String
  /-- The fields of a value, if it is of this alternative. -/
  encode : σ → Option (List (String × Document α))
  decode : Nat → Document α → Except Fault σ
  /-- The second entries are the first, with any left out that hold their default. -/
  abridges : List (Option String × Document α) → List (Option String × Document α) → Prop

/-- An alternative without fields, recognised by `is`; any named fields are passed over, but nothing
may stand in an array behind the name. -/
def Variant.bare (name : String) (x : σ) (is : σ → Bool) : Variant α σ where
  name
  encode y := if is y then some [] else none
  decode
    | _, .array (_ :: _) _ => .error .mismatch
    | _, _ => .ok x
  abridges entries entries' := entries' = entries

/-- An alternative with fields. -/
def Variant.fielded (name : String) (start : ρ) (fields : List (Field α ρ)) (inject : ρ → σ)
    (project : σ → Option ρ) : Variant α σ where
  name
  encode y := (project y).map fun r => fieldEntries fields r
  decode depth d := inject <$> decodeRecord start fields depth d
  abridges := AbridgesEntries start fields

/-- A fault of a document that was read whole before is one of shape. -/
def ofShape (r : Except Fault σ) : Except Fault σ := r.mapError fun _ => .mismatch

/-- The alternative that a document names. -/
def decodeTag (variants : List (Variant α σ)) : Document α → Except Fault (Variant α σ)
  | .string s =>
    match variants.find? (·.name == s) with
    | some v => .ok v
    | none => .error .mismatch
  | d => .error d.mismatch

/-- Reads the entries around a tag: the tag's alternative and the other entries in order. -/
def splitTag (tag : String) (variants : List (Variant α σ)) (depth : Nat) (tail : Option Break) :
    Option (Variant α σ) → List (Option String × Document α) →
      Except Fault (Variant α σ × List (Option String × Document α))
  | found, [] => match tail, found with
    | some b, _ => .error b.expected
    | none, some v => .ok (v, [])
    | none, none => .error .mismatch
  | _, (none, _) :: _ => .error .malformed
  | found, (some key, d) :: rest =>
    if key == tag then
      match found with
      | some _ => .error .mismatch
      | none => do
        let v ← decodeTag variants d
        splitTag tag variants depth tail (some v) rest
    else do
      failing (readFault depth d)
      let (v, others) ← splitTag tag variants depth tail found rest
      return (v, (some key, d) :: others)

/-- Reads a tagged record: an object with the tag anywhere, or an array that starts with it. The
document is read whole before the fields are. -/
def decodeTagged (tag : String) (variants : List (Variant α σ)) (depth : Nat) :
    Document α → Except Fault σ
  | .object entries tail => do
    let inner ← enter depth
    let (v, others) ← splitTag tag variants inner tail none entries
    ofShape (v.decode depth (.object others none))
  | .array [] tail => do
    let _ ← enter depth
    match tail with
    | some b => .error b.expected
    | none => .error .mismatch
  | .array (d :: items) tail => do
    let inner ← enter depth
    let v ← decodeTag variants d
    failing (readFaultItems inner items)
    failing (tail.map (·.expected))
    ofShape (v.decode depth (.array items none))
  | d => .error d.mismatch

/-- A choice written as a record with the name of the alternative under `tag`. -/
def tagged (tag : String) (variants : List (Variant α σ)) : Codec α σ where
  encode x :=
    match variants.findSome? fun v => (v.encode x).map fun es => (v.name, es) with
    | some (name, entries) => .ofEntries ((tag, .string name) :: entries)
    | none => .null
  decode depth d := decodeTagged tag variants depth d
  abridges d d' := ∃ v ∈ variants, ∃ entries entries',
    d = .object ((some tag, .string v.name) :: entries) none ∧
      d' = .object ((some tag, .string v.name) :: entries') none ∧ v.abridges entries entries'

/-- A choice by name inside a tagged record, where an empty object counts as `null` too. -/
def namedInTagged [BEq σ] (names : List (String × σ)) : Codec α σ :=
  let plain : Codec α σ := named names
  { plain with
    decode
      | depth, .object [(some key, .object [] none)] none =>
        plain.decode depth (.object [(some key, .null)] none)
      | depth, d => plain.decode depth d }

/-! ## Choices written as a name beside a value -/

/-- What the entries read so far say about a choice. -/
inductive Gathered (α σ : Type) where
  | nothing
  | alternative (a : Alternative α σ)
  /-- The document of its value, of an alternative yet unknown. -/
  | content (d : Document α)
  | complete (x : σ)

/-- Reads the name of an alternative, which may stand as the key of a `null`. -/
def decodeName (alternatives : List (Alternative α σ)) (depth : Nat) (d : Document α) :
    Except Fault (Alternative α σ) :=
  decodeChoice (alternatives.map fun a => .unit a.name a fun _ => false) depth d

/-- Reads the entries of an object into a choice, the name under `tag`, the value under `beside`. -/
def decodePairEntries (tag beside : String) (alternatives : List (Alternative α σ)) (depth : Nat)
    (tail : Option Break) :
    Gathered α σ → List (Option String × Document α) → Except Fault σ
  | gathered, [] => match tail, gathered with
    | some b, _ => .error b.expected
    | none, .complete x => .ok x
    | none, .alternative a => match a.alone with
      | some x => .ok x
      | none => .error .mismatch
    | none, _ => .error .mismatch
  | _, (none, _) :: _ => .error .malformed
  | gathered, (some key, d) :: rest =>
    if key == tag then
      match gathered with
      | .nothing => do
        let a ← decodeName alternatives depth d
        decodePairEntries tag beside alternatives depth tail (.alternative a) rest
      | .content value => do
        let a ← decodeName alternatives depth d
        let x ← ofShape (a.decode depth value)
        decodePairEntries tag beside alternatives depth tail (.complete x) rest
      | _ => .error .mismatch
    else if key == beside then
      match gathered with
      | .nothing => do
        failing (readFault depth d)
        decodePairEntries tag beside alternatives depth tail (.content d) rest
      | .alternative a => do
        let x ← a.decode depth d
        decodePairEntries tag beside alternatives depth tail (.complete x) rest
      | _ => .error .mismatch
    else do
      failing d.skipFault
      decodePairEntries tag beside alternatives depth tail gathered rest

/-- Reads the items of an array into a choice: the plain name, then the value. -/
def decodePairItems (alternatives : List (Alternative α σ)) (depth : Nat) (tail : Option Break) :
    List (Document α) → Except Fault σ
  | .string s :: items =>
    match alternatives.find? (·.name == s), items with
    | none, _ => .error .mismatch
    | some a, d :: rest => do
      let x ← a.decode depth d
      match rest, tail with
      | [], none => return x
      | [], some b => throw b.strict
      | _ :: _, _ => throw .malformed
    | some _, [] => match tail with
      | some b => .error b.expected
      | none => .error .mismatch
  | d :: _ => .error d.mismatch
  | [] => match tail with
    | some b => .error b.expected
    | none => .error .mismatch

/-- A choice written as a record with the name of the alternative under `tag` and its value, if it
has one, under `beside`. -/
def paired (tag beside : String) (alternatives : List (Alternative α σ)) : Codec α σ where
  encode x :=
    match nameOf alternatives x with
    | some (name, none) => .ofEntries [(tag, .string name)]
    | some (name, some value) => .ofEntries [(tag, .string name), (beside, value)]
    | none => .null
  decode
    | depth, .object entries tail => do
      let depth ← enter depth
      decodePairEntries tag beside alternatives depth tail .nothing entries
    | depth, .array items tail => do
      let depth ← enter depth
      decodePairItems alternatives depth tail items
    | _, d => .error d.mismatch
  abridges
    | .object [(some key, .string s), (some other, d)] none, d' => ∃ a value,
      alternatives.find? (·.name == s) = some a ∧ a.abridges d value ∧
        d' = .object [(some key, .string s), (some other, value)] none
    | d, d' => d' = d

end Codec
end DebrisDisk
