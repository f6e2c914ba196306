import DebrisDisk.Scalar

/-!
# Documents

Configurations and records are exchanged as JSON documents. A `Document` is the tree of one text;
numbers are kept as values, a count apart from the other numbers so that integers stay exact.

A text is read from left to right and reading stops at the first fault, which may be a fault of the
text or of the shape that the reader wants. The tree therefore keeps the first fault of its text in
the place where it stands: `broken` for a value and a `tail` for an array or object that is cut
short. A reader that walks the tree in order meets the faults in the order of the text. What counts
as a fault depends on how a place is read, and `Break` holds the answer for each way.
-/

namespace DebrisDisk

/-- Why a document cannot be read. -/
inductive Fault where
  | ended
  | malformed
  /-- A document of another shape was wanted. -/
  | mismatch
  deriving DecidableEq, Repr

/-- The fault of a text at one place, by the way in which the place is read. -/
structure Break where
  /-- Met where a value, or one more element, is read. -/
  expected : Fault
  /-- Met where the value is passed over; some faults then go unnoticed. -/
  skipped : Option Fault
  /-- Met where only a name or the closing bracket may stand. -/
  strict : Fault
  /-- The text begins to spell `null` here. -/
  spellsNull : Bool := false
  deriving DecidableEq, Repr

/-- The same fault however the place is read. -/
def Break.always (f : Fault) : Break := { expected := f, skipped := some f, strict := f }

/-- A JSON document, up to the first fault of its text. -/
inductive Document (α : Type) where
  | null
  | bool (b : Bool)
  /-- A number written as a plain natural number. -/
  | whole (n : Nat)
  | real (x : α)
  | string (s : String)
  /-- A list of documents, cut short by `tail`. -/
  | array (items : List (Document α)) (tail : Option Break)
  /-- Named documents in order, cut short by `tail`; a key is absent when its text is no string. -/
  | object (entries : List (Option String × Document α)) (tail : Option Break)
  /-- No value, because of a fault of the text. -/
  | broken (b : Break)

namespace Document
variable {α : Type}

/-- A complete object. -/
def ofEntries (entries : List (String × Document α)) : Document α :=
  .object (entries.map fun (k, d) => (some k, d)) none

/-- A complete array. -/
def ofList (items : List (Document α)) : Document α := .array items none

/-- The deepest nesting of arrays and objects that is read. -/
def depthLimit : Nat := 127

/-- Goes one array or object deeper. -/
def enter (depth : Nat) : Except Fault Nat :=
  if depth < depthLimit then .ok (depth + 1) else .error .malformed

/-- The fault of a document that is not of the wanted shape. -/
def mismatch : Document α → Fault
  | .broken b => b.expected
  | _ => .mismatch

mutual
/-- The first fault met when the document is passed over. -/
def skipFault : Document α → Option Fault
  | .array items tail => (skipFaultItems items).orElse fun _ => tail.bind (·.skipped)
  | .object entries tail => (skipFaultEntries entries).orElse fun _ => tail.bind (·.skipped)
  | .broken b => b.skipped
  | _ => none
/-- The first fault met when the items are passed over. -/
def skipFaultItems : List (Document α) → Option Fault
  | [] => none
  | d :: ds => (skipFault d).orElse fun _ => skipFaultItems ds
/-- The first fault met when the entries are passed over; a key that is no string goes unnoticed. -/
def skipFaultEntries : List (Option String × Document α) → Option Fault
  | [] => none
  | (_, d) :: es => (skipFault d).orElse fun _ => skipFaultEntries es
end

mutual
/-- The first fault met when the document is read whole at the given depth. -/
def readFault (depth : Nat) : Document α → Option Fault
  | .array items tail =>
    if depth < depthLimit then
      (readFaultItems (depth + 1) items).orElse fun _ => tail.map (·.expected)
    else some .malformed
  | .object entries tail =>
    if depth < depthLimit then
      (readFaultEntries (depth + 1) entries).orElse fun _ => tail.map (·.expected)
    else some .malformed
  | .broken b => some b.expected
  | _ => none
/-- The first fault met when the items are read whole. -/
def readFaultItems (depth : Nat) : List (Document α) → Option Fault
  | [] => none
  | d :: ds => (readFault depth d).orElse fun _ => readFaultItems depth ds
/-- The first fault met when the entries are read whole. -/
def readFaultEntries (depth : Nat) : List (Option String × Document α) → Option Fault
  | [] => none
  | (none, _) :: _ => some .malformed
  | (some _, d) :: es => (readFault depth d).orElse fun _ => readFaultEntries depth es
end

/-- Fails with the fault, if there is one. -/
def failing : Option Fault → Except Fault Unit
  | some f => .error f
  | none => .ok ()

end Document
end DebrisDisk
