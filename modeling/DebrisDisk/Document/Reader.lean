import DebrisDisk.Document.Numeral

/-!
# Reading the text of a document

`Document.ofText` builds the tree of a text, up to the first fault. Strings follow the JSON grammar:
an escaped surrogate that lacks its partner makes a string unreadable, but such a string may still
be passed over.
-/

namespace DebrisDisk.Document

/-- Drops the blanks that may stand between tokens. -/
def dropBlank (cs : List Char) : List Char :=
  cs.dropWhile fun c => c == ' ' || c == '\n' || c == '\t' || c == '\r'

/-! ## Strings -/

/-- A string as it stands in a text, after its opening quote. -/
inductive StringToken where
  /-- A complete string, absent when it holds an unpaired surrogate. -/
  | complete (s : Option String) (rest : List Char)
  | faulty (b : Break)

/-- The value of a hexadecimal digit. -/
def hexValue (c : Char) : Option Nat :=
  if c.isDigit then some (c.toNat - '0'.toNat)
  else if 'a' ≤ c && c ≤ 'f' then some (c.toNat - 'a'.toNat + 10)
  else if 'A' ≤ c && c ≤ 'F' then some (c.toNat - 'A'.toNat + 10)
  else none

/-- Four hexadecimal digits; a text of less than four bytes has ended early. -/
def hexUnit : List Char → Except Fault (Nat × List Char)
  | a :: b :: c :: d :: rest =>
    match hexValue a, hexValue b, hexValue c, hexValue d with
    | some a, some b, some c, some d => .ok (((a * 16 + b) * 16 + c) * 16 + d, rest)
    | _, _, _, _ => .error .malformed
  | cs => if cs.foldl (fun n c => n + c.utf8Size) 0 < 4 then .error .ended else .error .malformed

/-- The character of a one-letter escape. -/
def plainEscape : Char → Option Char
  | '"' => some '"'
  | '\\' => some '\\'
  | '/' => some '/'
  | 'b' => some '\x08'
  | 'f' => some '\x0c'
  | 'n' => some '\n'
  | 'r' => some '\r'
  | 't' => some '\t'
  | _ => none

/-- The fault of a string; an unpaired surrogate before it is met first by a reader. -/
def stringFault (paired : Bool) (f : Fault) : StringToken :=
  let read := if paired then f else .malformed
  .faulty { expected := read, skipped := some f, strict := read }

/-- What follows an escaped leading surrogate. -/
inductive AfterLead where
  /-- The trailing surrogate, and the rest of the text. -/
  | trail (unit : Nat) (rest : List Char)
  | alone
  | fault (f : Fault)

/-- Looks for the escaped trailing surrogate. -/
def afterLead : List Char → AfterLead
  | [] => .fault .ended
  | '\\' :: [] => .fault .ended
  | '\\' :: 'u' :: cs =>
    match hexUnit cs with
    | .error f => .fault f
    | .ok (n, rest) => if 0xDC00 ≤ n && n ≤ 0xDFFF then .trail n rest else .alone
  | _ => .alone

/-- Reads a string up to its closing quote. `done` holds the characters so far, last first; `paired`
is false once an unpaired surrogate was met. -/
def readString : (fuel : Nat) → (paired : Bool) → (done : List Char) → List Char → StringToken
  | 0, paired, _, _ => stringFault paired .ended
  | _, paired, _, [] => stringFault paired .ended
  | _, paired, done, '"' :: rest =>
    .complete (if paired then some (String.ofList done.reverse) else none) rest
  | _, paired, _, '\\' :: [] => stringFault paired .ended
  | fuel + 1, paired, done, '\\' :: 'u' :: cs =>
    match hexUnit cs with
    | .error f => stringFault paired f
    | .ok (n, rest) =>
      if 0xD800 ≤ n && n ≤ 0xDBFF then
        match afterLead rest with
        | .trail m rest =>
          readString fuel paired
            (Char.ofNat (0x10000 + (n - 0xD800) * 0x400 + (m - 0xDC00)) :: done) rest
        | .alone => readString fuel false done rest
        | .fault f => stringFault paired f
      else if 0xDC00 ≤ n && n ≤ 0xDFFF then readString fuel false done rest
      else readString fuel paired (Char.ofNat n :: done) rest
  | fuel + 1, paired, done, '\\' :: c :: rest =>
    match plainEscape c with
    | some x => readString fuel paired (x :: done) rest
    | none => stringFault paired .malformed
  | fuel + 1, paired, done, c :: rest =>
    if c.toNat < 0x20 then stringFault paired .malformed
    else readString fuel paired (c :: done) rest

/-- Reads a string after its opening quote. -/
def stringToken (cs : List Char) : StringToken := readString (cs.length + 1) true [] cs

/-! ## Values -/

/-- Reads the letters of a literal word. -/
def readWord : (word : List Char) → List Char → Except Fault (List Char)
  | [], rest => .ok rest
  | _ :: _, [] => .error .ended
  | w :: ws, c :: cs => if c == w then readWord ws cs else .error .malformed

variable {α : Type} [Scalar α]

/-- The document of a literal word, given the letters after its first. -/
def wordDocument (value : Document α) (letters : List Char) (spellsNull : Bool) (cs : List Char) :
    Document α × Option (List Char) :=
  match readWord letters cs with
  | .ok rest => (value, some rest)
  | .error f =>
    (.broken { expected := f, skipped := some f, strict := .malformed, spellsNull }, none)

/-- Reads a value that is neither an array nor an object. The rest of the text is absent when the
text has a fault beyond which nothing is read. -/
def readLeaf : List Char → Document α × Option (List Char)
  | [] => (.broken (Break.always .ended), none)
  | 'n' :: cs => wordDocument .null ['u', 'l', 'l'] true cs
  | 't' :: cs => wordDocument (.bool true) ['r', 'u', 'e'] false cs
  | 'f' :: cs => wordDocument (.bool false) ['a', 'l', 's', 'e'] false cs
  | '"' :: cs =>
    match stringToken cs with
    | .complete (some s) rest => (.string s, some rest)
    | .complete none rest =>
      (.broken { expected := .malformed, skipped := none, strict := .malformed }, some rest)
    | .faulty b => (.broken b, none)
  | c :: cs =>
    if c.isDigit || c == '-' then
      match readNumeral (c :: cs) with
      | .ok (l, rest) => (l.document, some rest)
      | .error b => (.broken b, none)
    else (.broken (Break.always .malformed), none)

/-- Puts a document in front of the items that follow it. -/
def consItem (d : Document α) (r : List (Document α) × Option Break × Option (List Char)) :
    List (Document α) × Option Break × Option (List Char) :=
  (d :: r.1, r.2)

/-- Puts an entry in front of the entries that follow it. -/
def consEntry (key : Option String) (d : Document α)
    (r : List (Option String × Document α) × Option Break × Option (List Char)) :
    List (Option String × Document α) × Option Break × Option (List Char) :=
  ((key, d) :: r.1, r.2)

mutual
/-- Reads a value after blanks. -/
def readValue : (fuel : Nat) → List Char → Document α × Option (List Char)
  | 0, _ => (.broken (Break.always .ended), none)
  | fuel + 1, cs =>
    match dropBlank cs with
    | '[' :: rest =>
      let (items, tail, rest) := readItems fuel true rest
      (.array items tail, rest)
    | '{' :: rest =>
      let (entries, tail, rest) := readEntries fuel true rest
      (.object entries tail, rest)
    | cs => readLeaf cs

/-- Reads the items of an array up to its closing bracket; `first` before any item was read. -/
def readItems : (fuel : Nat) → (first : Bool) → List Char →
    List (Document α) × Option Break × Option (List Char)
  | 0, _, _ => ([], some (Break.always .ended), none)
  | fuel + 1, first, cs =>
    let one (cs : List Char) :=
      let (d, rest) := readValue fuel cs
      match rest with
      | none => ([d], none, none)
      | some rest => consItem d (readItems fuel false rest)
    match dropBlank cs with
    | [] => ([], some (Break.always .ended), none)
    | ']' :: rest => ([], none, some rest)
    | c :: rest =>
      if first then one (c :: rest)
      else if c == ',' then
        match dropBlank rest with
        | [] => ([], some { Break.always .ended with strict := .malformed }, none)
        | ']' :: _ => ([], some (Break.always .malformed), none)
        | cs => one cs
      else ([], some (Break.always .malformed), none)

/-- Reads the entries of an object up to its closing brace; `first` before any entry was read. -/
def readEntries : (fuel : Nat) → (first : Bool) → List Char →
    List (Option String × Document α) × Option Break × Option (List Char)
  | 0, _, _ => ([], some (Break.always .ended), none)
  | fuel + 1, first, cs =>
    let one (cs : List Char) :=
      match stringToken cs with
      | .faulty b =>
        ([], some (if first then b else { b with strict := .malformed }), none)
      | .complete key rest =>
        match dropBlank rest with
        | [] => ([(key, .broken (Break.always .ended))], none, none)
        | ':' :: rest =>
          let (d, rest) := readValue fuel rest
          match rest with
          | none => ([(key, d)], none, none)
          | some rest => consEntry key d (readEntries fuel false rest)
        | _ => ([(key, .broken (Break.always .malformed))], none, none)
    match dropBlank cs with
    | [] => ([], some (Break.always .ended), none)
    | '}' :: rest => ([], none, some rest)
    | '"' :: rest => if first then one rest else ([], some (Break.always .malformed), none)
    | ',' :: rest =>
      if first then ([], some (Break.always .malformed), none)
      else match dropBlank rest with
        | '"' :: rest => one rest
        | [] => ([], some { Break.always .ended with strict := .malformed }, none)
        | _ => ([], some (Break.always .malformed), none)
    | _ => ([], some (Break.always .malformed), none)
end

/-- The document of a text, and the fault of what follows it. -/
def ofText (text : String) : Document α × Option Fault :=
  let cs := text.toList
  match readValue (2 * cs.length + 2) cs with
  | (d, none) => (d, none)
  | (d, some rest) => (d, if (dropBlank rest).isEmpty then none else some .malformed)

end DebrisDisk.Document
