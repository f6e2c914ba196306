import DebrisDisk.Document.Reader

/-!
# Codecs

A `Codec α β` writes values of type `β` as documents and reads them back. The combinators here cover
numbers, optional values, lists and records with named fields; `DebrisDisk.Document.Choice` covers
choices between alternatives.

Reading follows the document in order, so the first fault wins. A record may also be written as the
array of its fields; a field that is absent is an error, an empty optional value or the default,
according to its `Presence`. Fields of other names are passed over.

Entries that hold their default may be left out of what is written. Which ones these are depends on
what a document describes, so a codec says of two documents whether the second is the first with
such entries left out.

## Main definitions

* `Codec.real`, `Codec.count`, `Codec.truth`, `Codec.optional`, `Codec.list`.
* `Field`, `Codec.record`: records.
* `Codec.AbridgesEntries`: the entries of a record that may be left out.
* `Codec.read`: from a text to a value.
-/

namespace DebrisDisk
open Document

/-- A way to write values as documents, and to read them at a given depth of nesting. -/
structure Codec (α β : Type) where
  encode : β → Document α
  decode : Nat → Document α → Except Fault β
  /-- The second document is the first, with any entries left out that hold their default. -/
  abridges : Document α → Document α → Prop

namespace Codec
variable {α β γ ρ σ : Type}

/-! ## Single values -/

/-- A number. -/
def real [Scalar α] : Codec α α where
  encode x := .real x
  decode
    | _, .whole n => .ok (Scalar.ofNat n)
    | _, .real x => .ok x
    | _, d => .error d.mismatch
  abridges d d' := d' = d

/-- A natural number, written without point and exponent. -/
def count : Codec α Nat where
  encode n := .whole n
  decode
    | _, .whole n => .ok n
    | _, d => .error d.mismatch
  abridges d d' := d' = d

/-- A truth value. -/
def truth : Codec α Bool where
  encode b := .bool b
  decode
    | _, .bool b => .ok b
    | _, d => .error d.mismatch
  abridges d d' := d' = d

/-- A value that may be absent, which is written `null`. -/
def optional (c : Codec α β) : Codec α (Option β) where
  encode
    | none => .null
    | some x => c.encode x
  decode
    | _, .null => .ok none
    | depth, .broken b => if b.spellsNull then .error b.expected
        else some <$> c.decode depth (.broken b)
    | depth, d => some <$> c.decode depth d
  abridges
    | .null, d' => d' = .null
    | d, d' => c.abridges d d'

/-- Reads the items of a list in order. -/
def decodeItems (read : Document α → Except Fault β) (tail : Option Break) :
    List (Document α) → Except Fault (List β)
  | [] => match tail with
    | none => .ok []
    | some b => .error b.expected
  | d :: ds => do
    let x ← read d
    let xs ← decodeItems read tail ds
    return x :: xs

/-- Items that are abridged one by one. -/
inductive AbridgesItems (abridges : Document α → Document α → Prop) :
    List (Document α) → List (Document α) → Prop where
  | nil : AbridgesItems abridges [] []
  | cons {d d' : Document α} {items items' : List (Document α)} (item : abridges d d')
      (others : AbridgesItems abridges items items') :
      AbridgesItems abridges (d :: items) (d' :: items')

/-- A list, written as an array. -/
def list (c : Codec α β) : Codec α (List β) where
  encode xs := .ofList (xs.map c.encode)
  decode
    | depth, .array items tail => do
      let depth ← enter depth
      decodeItems (c.decode depth) tail items
    | _, d => .error d.mismatch
  abridges d d' := ∃ items items', d = .ofList items ∧ d' = .ofList items' ∧
    AbridgesItems c.abridges items items'

/-- The same documents for values of another type. -/
def map (c : Codec α β) (wrap : β → γ) (unwrap : γ → β) : Codec α γ where
  encode x := c.encode (unwrap x)
  decode depth d := wrap <$> c.decode depth d
  abridges := c.abridges

end Codec

/-! ## Records -/

/-- What becomes of a field that a document does not name. -/
inductive Presence where
  | required
  /-- The field is empty unless it is named; an array of fields has to hold it. -/
  | emptyIfUnnamed
  | defaulted
  deriving DecidableEq, Repr

/-- One named field of the records of type `ρ`. -/
structure Field (α ρ : Type) where
  name : String
  presence : Presence
  {γ : Type}
  codec : Codec α γ
  get : ρ → γ
  set : γ → ρ → ρ

namespace Field
variable {α γ ρ : Type}

/-- The document of the field. -/
def encode (f : Field α ρ) (r : ρ) : Document α := f.codec.encode (f.get r)

/-- The record with the field read from a document. -/
def decode (f : Field α ρ) (depth : Nat) (d : Document α) (r : ρ) : Except Fault ρ :=
  (f.set · r) <$> f.codec.decode depth d

/-- A field that has to be there. -/
def required (name : String) (codec : Codec α γ) (get : ρ → γ) (set : γ → ρ → ρ) : Field α ρ :=
  { name, presence := .required, codec, get, set }

/-- An optional field, empty unless it is named. -/
def emptyIfUnnamed (name : String) (codec : Codec α γ) (get : ρ → Option γ)
    (set : Option γ → ρ → ρ) : Field α ρ :=
  { name, presence := .emptyIfUnnamed, codec := codec.optional, get, set }

/-- A field with a default. -/
def defaulted (name : String) (codec : Codec α γ) (get : ρ → γ) (set : γ → ρ → ρ) : Field α ρ :=
  { name, presence := .defaulted, codec, get, set }

end Field

namespace Codec
variable {α β γ ρ σ : Type}

/-- The fields of a record in order, by name. -/
def fieldEntries (fields : List (Field α ρ)) (r : ρ) : List (String × Document α) :=
  fields.map fun f => (f.name, f.encode r)

/-- Reads the entries of an object into a record; `seen` lists the fields read so far. -/
def decodeEntries (fields : List (Field α ρ)) (depth : Nat) (tail : Option Break) :
    (seen : List String) → ρ → List (Option String × Document α) → Except Fault ρ
  | seen, r, [] => match tail with
    | some b => .error b.expected
    | none =>
      if fields.all fun f => f.presence != .required || seen.contains f.name then .ok r
      else .error .mismatch
  | _, _, (none, _) :: _ => .error .malformed
  | seen, r, (some key, d) :: rest =>
    match fields.find? (·.name == key) with
    | none => do
      failing d.skipFault
      decodeEntries fields depth tail seen r rest
    | some f =>
      if seen.contains key then .error .mismatch
      else do
        let r ← f.decode depth d r
        decodeEntries fields depth tail (key :: seen) r rest

/-- Reads the items of an array into a record, field by field. -/
def decodePositions (depth : Nat) (tail : Option Break) :
    List (Field α ρ) → ρ → List (Document α) → Except Fault ρ
  | [], r, [] => match tail with
    | some b => .error b.strict
    | none => .ok r
  | f :: fs, r, [] => match tail with
    | some b => .error b.expected
    | none =>
      if (f :: fs).all fun f => f.presence == .defaulted then .ok r else .error .mismatch
  | [], _, _ :: _ => .error .malformed
  | f :: fs, r, d :: ds => do
    let r ← f.decode depth d r
    decodePositions depth tail fs r ds

/-- Reads a record from an object or an array, on top of the record `start`. -/
def decodeRecord (start : ρ) (fields : List (Field α ρ)) (depth : Nat) :
    Document α → Except Fault ρ
  | .object entries tail => do
    let depth ← enter depth
    decodeEntries fields depth tail [] start entries
  | .array items tail => do
    let depth ← enter depth
    decodePositions depth tail fields start items
  | d => .error d.mismatch

/-- The entries of a record, of which some are left out: each is kept, with its own document
abridged, or left out if it need not be there and holds the field of `start`. -/
inductive AbridgesEntries (start : ρ) (fields : List (Field α ρ)) :
    List (Option String × Document α) → List (Option String × Document α) → Prop where
  | nil : AbridgesEntries start fields [] []
  | kept {key : String} {d d' : Document α} {rest rest' : List (Option String × Document α)}
      {f : Field α ρ} (named : fields.find? (·.name == key) = some f)
      (value : f.codec.abridges d d') (others : AbridgesEntries start fields rest rest') :
      AbridgesEntries start fields ((some key, d) :: rest) ((some key, d') :: rest')
  | leftOut {key : String} {d : Document α} {rest rest' : List (Option String × Document α)}
      {f : Field α ρ} (named : fields.find? (·.name == key) = some f)
      (free : f.presence ≠ .required) (value : d = f.encode start)
      (others : AbridgesEntries start fields rest rest') :
      AbridgesEntries start fields ((some key, d) :: rest) rest'

/-- A record with the given fields; fields that are absent are those of `start`. -/
def record (start : ρ) (fields : List (Field α ρ)) : Codec α ρ where
  encode r := .ofEntries (fieldEntries fields r)
  decode depth d := decodeRecord start fields depth d
  abridges d d' := ∃ entries entries', d = .object entries none ∧ d' = .object entries' none ∧
    AbridgesEntries start fields entries entries'

/-! ## Texts -/

/-- Reads a text: one document and nothing after it. -/
def read [Scalar α] (c : Codec α β) (text : String) : Except Fault β := do
  let (d, after) := ofText text
  let x ← c.decode 0 d
  failing after
  return x

end Codec
end DebrisDisk
