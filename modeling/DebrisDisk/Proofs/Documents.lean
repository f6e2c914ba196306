import DebrisDisk.Document.Choice
import DebrisDisk.Proofs.Outcome

/-!
# Documents that are read back

A codec is faithful when it reads back every value from the document it writes, and also from that
document with entries left out that hold their default. Codecs are built from combinators, and a
combinator of faithful codecs is faithful, so the faithfulness of a whole format is put together
like the format itself. Nesting is limited, so a faithful codec has a height: how far its documents
are nested at most.

Entries are left out one by one. The record that is read grows with the entries: after some of the
fields it holds these fields of the written record and the rest of the default. An entry that holds
its default changes nothing there, so it makes no difference whether it is read.

## Main definitions

* `Codec.IsFaithful`: documents are read back, abridged or not.
* `Field.Cover`: the fields make up the record.

## Main results

* `Codec.isFaithful_record`, `Codec.isFaithful_tagged`, `Codec.isFaithful_choice`: records and
  choices of faithful codecs are faithful.
* `Codec.abridgesEntries_filterMap`: any entries that hold their default may be left out.
-/

namespace DebrisDisk
open Document
universe u
variable {α β γ ρ σ : Type}

/-! ## Nesting -/

theorem Document.enter_eq_ok {depth height : Nat} (fits : depth + (height + 1) ≤ depthLimit) :
    enter depth = .ok (depth + 1) ∧ depth < depthLimit ∧ depth + 1 + height ≤ depthLimit := by
  have shallow : depth < depthLimit := by omega
  exact ⟨if_pos shallow, shallow, by omega⟩

theorem Document.readFaultEntries_cons {depth : Nat} {key : String} {d : Document α}
    {rest : List (Option String × Document α)} :
    readFaultEntries depth ((some key, d) :: rest) = none ↔
      readFault depth d = none ∧ readFaultEntries depth rest = none := by
  rw [readFaultEntries]
  cases readFault depth d <;> simp

theorem Document.readFaultItems_cons {depth : Nat} {d : Document α} {rest : List (Document α)} :
    readFaultItems depth (d :: rest) = none ↔
      readFault depth d = none ∧ readFaultItems depth rest = none := by
  rw [readFaultItems]
  cases readFault depth d <;> simp

namespace Codec

/-! ## Faithful codecs -/

/-- A value is read back from its document, and from that document with any entries left out that
hold their default. The documents are nested at most `height` deep, and nothing is wrong with them
when they are read whole. -/
structure IsFaithful (c : Codec α β) (height : Nat) : Prop where
  whole : ∀ x, c.abridges (c.encode x) (c.encode x)
  reads : ∀ {x d depth}, c.abridges (c.encode x) d → depth + height ≤ depthLimit →
    c.decode depth d = .ok x ∧ readFault depth d = none

namespace IsFaithful
variable {c : Codec α β} {height : Nat}

/-- Different values have different documents. -/
theorem injective (faithful : c.IsFaithful height) (low : height ≤ depthLimit) {x y : β}
    (same : c.encode x = c.encode y) : x = y := by
  have fits : 0 + height ≤ depthLimit := by omega
  have first := (faithful.reads (faithful.whole x) fits).1
  rw [same, (faithful.reads (faithful.whole y) fits).1] at first
  exact (Except.ok.inj first).symm

end IsFaithful

/-! ## Single values -/

@[simp] theorem isFaithful_real [Scalar α] {height : Nat} :
    (real : Codec α α).IsFaithful height where
  whole _ := rfl
  reads := by
    rintro x _ depth rfl _
    exact ⟨rfl, rfl⟩

@[simp] theorem isFaithful_count {height : Nat} : (count : Codec α Nat).IsFaithful height where
  whole _ := rfl
  reads := by
    rintro x _ depth rfl _
    exact ⟨rfl, rfl⟩

@[simp] theorem isFaithful_truth {height : Nat} : (truth : Codec α Bool).IsFaithful height where
  whole _ := rfl
  reads := by
    rintro x _ depth rfl _
    exact ⟨rfl, rfl⟩

/-- Nothing is written as `null`, and nothing is read from `null` or from a fault of the text. -/
structure IsSubstantial (c : Codec α β) : Prop where
  encode : ∀ x, c.encode x ≠ .null
  decode_null : ∀ depth x, c.decode depth .null ≠ .ok x
  decode_broken : ∀ depth x b, c.decode depth (.broken b) ≠ .ok x

@[simp] theorem isSubstantial_real [Scalar α] : (real : Codec α α).IsSubstantial where
  encode := by simp [real]
  decode_null := by simp [real]
  decode_broken := by simp [real]

@[simp] theorem isSubstantial_count : (count : Codec α Nat).IsSubstantial where
  encode := by simp [count]
  decode_null := by simp [count]
  decode_broken := by simp [count]

@[simp] theorem isSubstantial_record (start : ρ) (fields : List (Field α ρ)) :
    (record start fields).IsSubstantial where
  encode := by simp [record, ofEntries]
  decode_null := by simp [record, decodeRecord]
  decode_broken := by simp [record, decodeRecord]

@[simp] theorem isFaithful_optional {c : Codec α β} {height : Nat} (faithful : c.IsFaithful height)
    (substantial : c.IsSubstantial) : c.optional.IsFaithful height := by
  have written (x : β) : ∀ d, c.optional.abridges (c.encode x) d ↔ c.abridges (c.encode x) d := by
    intro d
    cases document : c.encode x with
    | null => exact absurd document (substantial.encode x)
    | _ => rfl
  refine { whole := fun x => ?_, reads := fun {x d depth} abridged fits => ?_ }
  · cases x with
    | none => rfl
    | some x => exact (written x _).mpr (faithful.whole x)
  · cases x with
    | none =>
      obtain rfl : d = .null := abridged
      exact ⟨rfl, rfl⟩
    | some x =>
      obtain ⟨reads, clean⟩ := faithful.reads ((written x d).mp abridged) fits
      refine ⟨?_, clean⟩
      cases d with
      | null => exact absurd reads (substantial.decode_null depth x)
      | broken b => exact absurd reads (substantial.decode_broken depth x b)
      | _ => simp [optional, reads]

/-! ## Lists -/

theorem AbridgesItems.whole {abridges : Document α → Document α → Prop} {items : List (Document α)}
    (each : ∀ d ∈ items, abridges d d) : AbridgesItems abridges items items := by
  induction items with
  | nil => exact .nil
  | cons d rest ih =>
    exact .cons (each d (by simp)) (ih fun d' member => each d' (by simp [member]))

/-- The items of a list are read back. -/
theorem decodeItems_of_abridges {c : Codec α β} {height depth : Nat}
    (faithful : c.IsFaithful height) (fits : depth + height ≤ depthLimit) {xs : List β}
    {items : List (Document α)} (abridged : AbridgesItems c.abridges (xs.map c.encode) items) :
    decodeItems (c.decode depth) none items = .ok xs ∧ readFaultItems depth items = none := by
  induction xs generalizing items with
  | nil =>
    cases abridged
    exact ⟨rfl, rfl⟩
  | cons x xs ih =>
    cases abridged with
    | cons item others =>
      obtain ⟨first, clean⟩ := faithful.reads item fits
      obtain ⟨rest, cleanRest⟩ := ih others
      exact ⟨by simp [decodeItems, first, rest, bind, Except.bind, pure, Except.pure],
        readFaultItems_cons.mpr ⟨clean, cleanRest⟩⟩

@[simp] theorem isFaithful_list {c : Codec α β} {height : Nat} (faithful : c.IsFaithful height) :
    c.list.IsFaithful (height + 1) where
  whole xs := ⟨_, _, rfl, rfl, .whole fun d member => by
    obtain ⟨x, _, rfl⟩ := List.mem_map.mp member
    exact faithful.whole x⟩
  reads := by
    rintro xs d depth ⟨items, items', written, rfl, abridged⟩ fits
    obtain ⟨enters, shallow, inside⟩ := enter_eq_ok fits
    obtain rfl : xs.map c.encode = items := by simpa [list, ofList] using written
    obtain ⟨decoded, clean⟩ := decodeItems_of_abridges faithful inside abridged
    exact ⟨by simp [list, ofList, enters, decoded, bind, Except.bind],
      by simp [ofList, readFault, shallow, clean]⟩

end Codec

/-! ## Records -/

namespace Field

/-- The second record with the field of the first. -/
def copy (f : Field α ρ) (r s : ρ) : ρ := f.set (f.get r) s

/-- What is left of a field: nothing, if it need not be there and holds the field of `start`, or
else its own document abridged. -/
def Leaves (start : ρ) (f : Field α ρ) (r : ρ) : Option (Document α) → Prop
  | none => f.presence ≠ .required ∧ f.encode r = f.encode start
  | some d => f.codec.abridges (f.encode r) d

/-- The fields make up the record. The record that is read grows field by field: `done r` is what it
is once the fields before these are read from the documents of `r`. The next field still is that of
`start`, and in the end the record is whole. -/
def Cover (start : ρ) : (done : ρ → ρ) → List (Field α ρ) → Prop
  | done, [] => ∀ r, done r = r
  | done, f :: rest =>
    (∀ r, f.copy start (done r) = done r) ∧ Cover start (fun r => f.copy r (done r)) rest

section Members
variable {start : ρ} {done : ρ → ρ} {f : Field α ρ} {rest : List (Field α ρ)}

@[simp] theorem cover_nil : Cover (α := α) start done [] ↔ ∀ r, done r = r := Iff.rfl

@[simp] theorem cover_cons : Cover start done (f :: rest) ↔
    (∀ r, f.copy start (done r) = done r) ∧ Cover start (fun r => f.copy r (done r)) rest := Iff.rfl

variable {name : String} {c : Codec α γ} {get : ρ → γ} {set : γ → ρ → ρ} {height : Nat}

@[simp] theorem name_required : (required name c get set).name = name := rfl

@[simp] theorem name_defaulted : (defaulted name c get set).name = name := rfl

@[simp] theorem copy_required (r s : ρ) : (required name c get set).copy r s = set (get r) s := rfl

@[simp] theorem copy_defaulted (r s : ρ) :
    (defaulted name c get set).copy r s = set (get r) s := rfl

@[simp] theorem isFaithful_required :
    (required name c get set).codec.IsFaithful height ↔ c.IsFaithful height := Iff.rfl

@[simp] theorem isFaithful_defaulted :
    (defaulted name c get set).codec.IsFaithful height ↔ c.IsFaithful height := Iff.rfl

end Members

/-- A field that is written like the default is the default. -/
theorem copy_of_encode_eq {f : Field α ρ} {height : Nat} (faithful : f.codec.IsFaithful height)
    (low : height ≤ depthLimit) {r s : ρ} (same : f.encode r = f.encode s) :
    f.copy r = f.copy s := by
  have value : f.get r = f.get s := faithful.injective low same
  unfold copy
  rw [value]

end Field

namespace Codec

/-- What has a name of its own is found by it. -/
theorem find?_of_nodup {ι : Type u} (name : ι → String) {xs : List ι}
    (distinct : (xs.map name).Nodup) {x : ι} (member : x ∈ xs) :
    xs.find? (name · == name x) = some x := by
  induction xs with
  | nil => simp at member
  | cons y rest ih =>
    rw [List.map_cons, List.nodup_cons] at distinct
    rcases List.mem_cons.mp member with rfl | later
    · simp
    · have other : name y ≠ name x := fun same =>
        distinct.1 (same ▸ List.mem_map_of_mem later)
      rw [List.find?_cons_of_neg (by simpa using other)]
      exact ih distinct.2 later

/-- The entries of a complete object. -/
def keyed (entries : List (String × Document α)) : List (Option String × Document α) :=
  entries.map fun (key, d) => (some key, d)

section Record
variable {start : ρ} {fields : List (Field α ρ)} {height : Nat}

/-- The fields of a record can be left out or abridged independently of each other. -/
theorem abridgesEntries_filterMap (distinct : (fields.map (·.name)).Nodup) (r : ρ)
    (left : Field α ρ → Option (Document α)) (each : ∀ f ∈ fields, f.Leaves start r (left f)) :
    AbridgesEntries start fields (keyed (fieldEntries fields r))
      (keyed (fields.filterMap fun f => (left f).map fun d => (f.name, d))) := by
  have part (these : List (Field α ρ)) (within : ∀ f ∈ these, f ∈ fields) :
      AbridgesEntries start fields (keyed (fieldEntries these r))
        (keyed (these.filterMap fun f => (left f).map fun d => (f.name, d))) := by
    induction these with
    | nil => exact .nil
    | cons f rest ih =>
      have known := find?_of_nodup Field.name distinct (within f (by simp))
      have here := each f (within f (by simp))
      have others := ih fun g later => within g (by simp [later])
      cases what : left f with
      | none =>
        rw [what] at here
        rw [List.filterMap_cons_none (by rw [what]; rfl)]
        exact .leftOut known here.1 here.2 others
      | some d =>
        rw [what] at here
        rw [List.filterMap_cons_some (by rw [what]; rfl)]
        exact .kept known here others
  exact part fields fun _ member => member

/-- After the entries named in `seen`, those of the fields in `left` may follow: each field is still
to be read or was read or need not be there. -/
structure IsLeft (fields left : List (Field α ρ)) (seen : List String) : Prop where
  named : ∀ f ∈ left, fields.find? (·.name == f.name) = some f
  distinct : (left.map (·.name)).Nodup
  unseen : ∀ f ∈ left, f.name ∉ seen
  present : ∀ f ∈ fields, f ∈ left ∨ f.presence ≠ .required ∨ f.name ∈ seen

namespace IsLeft
variable {f : Field α ρ} {rest : List (Field α ρ)} {seen : List String}

/-- At first all fields are left. -/
theorem all (distinct : (fields.map (·.name)).Nodup) : IsLeft fields fields [] where
  named f member := find?_of_nodup Field.name distinct member
  distinct := distinct
  unseen := by simp
  present f member := .inl member

/-- The next field is read. -/
theorem read (left : IsLeft fields (f :: rest) seen) : IsLeft fields rest (f.name :: seen) := by
  obtain ⟨named, distinct, unseen, present⟩ := left
  rw [List.map_cons, List.nodup_cons] at distinct
  refine { named := fun g later => named g (by simp [later]), distinct := distinct.2,
           unseen := fun g later => ?_, present := fun g member => ?_ }
  · have other : g.name ≠ f.name := fun same =>
      distinct.1 (same ▸ List.mem_map_of_mem (f := (·.name)) later)
    simpa using ⟨other, unseen g (by simp [later])⟩
  · rcases present g member with inside | free | before
    · rcases List.mem_cons.mp inside with rfl | later
      · exact .inr (.inr (by simp))
      · exact .inl later
    · exact .inr (.inl free)
    · exact .inr (.inr (by simp [before]))

/-- The next field is passed over. -/
theorem skip (left : IsLeft fields (f :: rest) seen) (free : f.presence ≠ .required) :
    IsLeft fields rest seen := by
  obtain ⟨named, distinct, unseen, present⟩ := left
  refine { named := fun g later => named g (by simp [later]),
           distinct := (List.nodup_cons.mp distinct).2,
           unseen := fun g later => unseen g (by simp [later]), present := fun g member => ?_ }
  rcases present g member with inside | otherwise
  · rcases List.mem_cons.mp inside with rfl | later
    · exact .inr (.inl free)
    · exact .inl later
  · exact .inr otherwise

end IsLeft

/-- The entries of the fields that are left are read on top of those that were read before. -/
theorem decodeEntries_of_abridges {depth : Nat} (fits : depth + height ≤ depthLimit) (r : ρ)
    {done : ρ → ρ} {left : List (Field α ρ)} (faithful : ∀ f ∈ left, f.codec.IsFaithful height)
    (cover : Field.Cover start done left) {seen : List String} (isLeft : IsLeft fields left seen)
    {entries : List (Option String × Document α)}
    (abridged : AbridgesEntries start fields (keyed (fieldEntries left r)) entries) :
    decodeEntries fields depth none seen (done r) entries = .ok r ∧
      readFaultEntries depth entries = none := by
  induction left generalizing done seen entries with
  | nil =>
    obtain rfl : entries = [] := by
      cases abridged
      rfl
    have complete :
        (fields.all fun f => f.presence != .required || seen.contains f.name) = true := by
      simpa using isLeft.present
    exact ⟨by rw [decodeEntries, if_pos complete, cover r], rfl⟩
  | cons f rest ih =>
    obtain ⟨untouched, others⟩ := cover
    obtain ⟨here, faithfulRest⟩ := List.forall_mem_cons.mp faithful
    have known := isLeft.named f (by simp)
    cases abridged with
    | kept known' value abridged =>
      obtain rfl := Option.some.inj (known.symm.trans known')
      obtain ⟨read, clean⟩ := here.reads value fits
      obtain ⟨whole, cleanRest⟩ := ih faithfulRest others isLeft.read abridged
      refine ⟨?_, readFaultEntries_cons.mpr ⟨clean, cleanRest⟩⟩
      have fresh : ¬ seen.contains f.name = true := by simpa using isLeft.unseen f (by simp)
      simp only [decodeEntries, known, if_neg fresh, Field.decode, read, Functor.map, Except.map,
        bind, Except.bind]
      exact whole
    | leftOut known' free value abridged =>
      obtain rfl := Option.some.inj (known.symm.trans known')
      have same : f.copy r (done r) = done r := by
        rw [Field.copy_of_encode_eq here (by omega) value, untouched]
      rw [← same]
      exact ih faithfulRest others (isLeft.skip free) abridged

/-- The fields have different names, each is written faithfully, and they make up the record. -/
structure IsRecord (start : ρ) (height : Nat) (fields : List (Field α ρ)) : Prop where
  distinct : (fields.map (·.name)).Nodup
  faithful : ∀ f ∈ fields, f.codec.IsFaithful height
  cover : Field.Cover start (fun _ => start) fields

namespace IsRecord

/-- A record may be left as it is written. -/
theorem whole (made : IsRecord start height fields) (r : ρ) :
    AbridgesEntries start fields (keyed (fieldEntries fields r))
      (keyed (fieldEntries fields r)) := by
  have each : ∀ f ∈ fields, f.Leaves start r (some (f.encode r)) := fun f member =>
    (made.faithful f member).whole (f.get r)
  simpa [fieldEntries] using
    abridgesEntries_filterMap made.distinct r (fun f => some (f.encode r)) each

/-- A record is read back from its entries, of which some may be left out. -/
theorem reads (made : IsRecord start height fields) {r : ρ}
    {entries : List (Option String × Document α)}
    (abridged : AbridgesEntries start fields (keyed (fieldEntries fields r)) entries) {depth : Nat}
    (fits : depth + (height + 1) ≤ depthLimit) :
    decodeRecord start fields depth (.object entries none) = .ok r ∧
      readFaultEntries (depth + 1) entries = none := by
  obtain ⟨enters, _, inside⟩ := enter_eq_ok fits
  obtain ⟨decoded, clean⟩ :=
    decodeEntries_of_abridges inside r made.faithful made.cover (.all made.distinct) abridged
  exact ⟨by simp only [decodeRecord, enters, bind, Except.bind, decoded], clean⟩

end IsRecord

theorem isFaithful_record (made : IsRecord start height fields) :
    (record start fields).IsFaithful (height + 1) where
  whole r := ⟨_, _, rfl, rfl, made.whole r⟩
  reads := by
    rintro r d depth ⟨entries, entries', written, rfl, abridged⟩ fits
    obtain rfl : keyed (fieldEntries fields r) = entries := by
      simpa [record, ofEntries, keyed] using written
    obtain ⟨decoded, clean⟩ := made.reads abridged fits
    exact ⟨decoded, by simp [readFault, (enter_eq_ok fits).2.1, clean]⟩

end Record

/-! ## Choices written by name -/

/-- A value of the alternative is read back, from its name alone or from what stands beside it. -/
structure Alternative.IsFaithful (a : Alternative α σ) (height : Nat) : Prop where
  alone : ∀ {x}, a.encode x = some none → a.alone = some x
  whole : ∀ {x d}, a.encode x = some (some d) → a.abridges d d
  reads : ∀ {x d d' depth}, a.encode x = some (some d) → a.abridges d d' →
    depth + height ≤ depthLimit → a.decode depth d' = .ok x ∧ readFault depth d' = none

theorem Alternative.isFaithful_unit {name : String} {x : σ} {is : σ → Bool}
    (only : ∀ y, is y = true → y = x) (height : Nat) :
    (Alternative.unit (α := α) name x is).IsFaithful height where
  alone := by
    intro y written
    cases known : is y with
    | false => simp [unit, known] at written
    | true => rw [only y known]; rfl
  whole _ := rfl
  reads := by
    intro y d d' depth written
    simp [unit] at written

theorem Alternative.isFaithful_holding {name : String} {c : Codec α γ} {inject : γ → σ}
    {project : σ → Option γ} {height : Nat} (faithful : c.IsFaithful height)
    (back : ∀ x y, project x = some y → inject y = x) :
    (Alternative.holding name c inject project).IsFaithful height where
  alone := by
    intro x written
    simp [holding] at written
  whole := by
    intro x d written
    simp only [holding, Option.map_eq_some_iff, Option.some.injEq] at written
    obtain ⟨y, _, rfl⟩ := written
    exact faithful.whole y
  reads := by
    intro x d d' depth written abridged fits
    simp only [holding, Option.map_eq_some_iff, Option.some.injEq] at written
    obtain ⟨y, projected, rfl⟩ := written
    obtain ⟨decoded, clean⟩ := faithful.reads abridged fits
    exact ⟨by simp [holding, decoded, back x y projected], clean⟩

/-- The alternatives have different names, each is faithful, and every value is of one of them. -/
structure IsChoice (alternatives : List (Alternative α σ)) (height : Nat) : Prop where
  distinct : (alternatives.map (·.name)).Nodup
  faithful : ∀ a ∈ alternatives, a.IsFaithful height
  total : ∀ x, ∃ a ∈ alternatives, (a.encode x).isSome

namespace IsChoice
variable {alternatives : List (Alternative α σ)} {height : Nat}

/-- Every value has a name. -/
theorem exists_nameOf (made : IsChoice alternatives height) (x : σ) :
    ∃ a ∈ alternatives, ∃ value, a.encode x = some value ∧
      nameOf alternatives x = some (a.name, value) := by
  obtain ⟨b, within, some⟩ := made.total x
  cases named : nameOf alternatives x with
  | none =>
    have none := List.findSome?_eq_none_iff.mp named b within
    simp only [Option.map_eq_none_iff] at none
    simp [none] at some
  | some found =>
    obtain ⟨a, member, written⟩ := List.exists_of_findSome?_eq_some named
    obtain ⟨value, encoded, rfl⟩ := Option.map_eq_some_iff.mp written
    exact ⟨a, member, value, encoded, rfl⟩

end IsChoice

theorem isFaithful_choice {alternatives : List (Alternative α σ)} {height : Nat}
    (made : IsChoice alternatives height) : (choice alternatives).IsFaithful (height + 1) where
  whole x := by
    obtain ⟨a, member, value, encoded, named⟩ := made.exists_nameOf x
    have found := find?_of_nodup Alternative.name made.distinct member
    cases value with
    | none =>
      simp only [choice, named]
    | some d =>
      have same := (made.faithful a member).whole encoded
      simp only [choice, named, ofEntries, List.map_cons, List.map_nil]
      exact ⟨a, d, found, same, rfl⟩
  reads := by
    intro x d depth abridged fits
    obtain ⟨a, member, value, encoded, named⟩ := made.exists_nameOf x
    have found := find?_of_nodup Alternative.name made.distinct member
    obtain ⟨enters, shallow, inside⟩ := enter_eq_ok fits
    cases value with
    | none =>
      simp only [choice, named] at abridged ⊢
      obtain rfl := abridged
      have alone := (made.faithful a member).alone encoded
      exact ⟨by simp [decodeChoice, found, alone], rfl⟩
    | some written =>
      simp only [choice, named, ofEntries, List.map_cons, List.map_nil] at abridged ⊢
      obtain ⟨a', value, found', abridged, rfl⟩ := abridged
      obtain rfl := Option.some.inj (found.symm.trans found')
      obtain ⟨decoded, clean⟩ := (made.faithful a member).reads encoded abridged inside
      refine ⟨?_, ?_⟩
      · simp [decodeChoice, enters, found, decoded, closing, bind, Except.bind, pure, Except.pure]
      · simp [readFault, shallow, readFaultEntries, clean]

/-- A value without parts is written as the name of its alternative. -/
theorem encode_choice_of_alone {alternatives : List (Alternative α σ)} {x : σ} {name : String}
    (alone : nameOf alternatives x = some (name, none)) :
    (choice alternatives).encode x = .string name := by
  simp only [choice, alone]

section Named
variable [BEq σ] [LawfulBEq σ] {names : List (String × σ)}
  (distinct : (names.map (·.1)).Nodup) (total : ∀ x, ∃ p ∈ names, p.2 = x)
include distinct total

theorem isChoice_named (height : Nat) :
    IsChoice (names.map fun (name, x) => Alternative.unit (α := α) name x (· == x)) height where
  distinct := by
    rw [List.map_map]
    exact distinct
  faithful a member := by
    obtain ⟨p, _, rfl⟩ := List.mem_map.mp member
    exact Alternative.isFaithful_unit (fun y same => eq_of_beq same) height
  total x := by
    obtain ⟨p, member, rfl⟩ := total x
    exact ⟨_, List.mem_map_of_mem member, by simp [Alternative.unit]⟩

/-- Names alone are read back when every value has one. -/
theorem isFaithful_named {height : Nat} : (named names : Codec α σ).IsFaithful (height + 1) :=
  isFaithful_choice (isChoice_named distinct total height)

/-- A name inside a tagged record is read like any other. -/
theorem isFaithful_namedInTagged {height : Nat} :
    (namedInTagged names : Codec α σ).IsFaithful (height + 1) := by
  have plain : (named names : Codec α σ).IsFaithful (height + 1) := isFaithful_named distinct total
  refine { whole := plain.whole, reads := fun {x d depth} abridged fits => ?_ }
  have read := plain.reads abridged fits
  obtain ⟨a, member, value, encoded, nameOf⟩ :=
    (isChoice_named distinct total height).exists_nameOf x
  obtain ⟨p, _, rfl⟩ := List.mem_map.mp member
  obtain rfl : none = value := by
    cases same : x == p.2 <;> simp_all [Alternative.unit]
  have written : (named names : Codec α σ).encode x = .string p.1 := encode_choice_of_alone nameOf
  change (named names : Codec α σ).abridges ((named names : Codec α σ).encode x) d at abridged
  rw [written] at abridged
  obtain rfl : d = .string p.1 := abridged
  exact read

end Named

/-! ## Choices written as records with a tag -/

/-- The entries that are left have names of fields. -/
theorem AbridgesEntries.name_mem {start : ρ} {fields : List (Field α ρ)}
    {entries entries' : List (Option String × Document α)}
    (abridged : AbridgesEntries start fields entries entries') :
    ∀ e ∈ entries', ∃ f ∈ fields, e.1 = some f.name := by
  induction abridged with
  | nil => simp
  | @kept key _ _ _ _ f named _ _ ih =>
    have name : f.name = key := by simpa using List.find?_some named
    intro e member
    rcases List.mem_cons.mp member with rfl | later
    · exact ⟨f, List.mem_of_find?_eq_some named, by simp [name]⟩
    · exact ih e later
  | leftOut _ _ _ _ ih => exact ih

/-- A value of the alternative is read back from its entries, of which some may be left out. None of
them is mistaken for the tag. -/
structure Variant.IsFaithful (tag : String) (v : Variant α σ) (height : Nat) : Prop where
  whole : ∀ {x entries}, v.encode x = some entries → v.abridges (keyed entries) (keyed entries)
  reads : ∀ {x entries entries' depth}, v.encode x = some entries →
    v.abridges (keyed entries) entries' → depth + (height + 1) ≤ depthLimit →
    v.decode depth (.object entries' none) = .ok x ∧ readFaultEntries (depth + 1) entries' = none ∧
      ∀ e ∈ entries', e.1 ≠ some tag

theorem Variant.isFaithful_bare {tag name : String} {x : σ} {is : σ → Bool}
    (only : ∀ y, is y = true → y = x) (height : Nat) :
    (Variant.bare (α := α) name x is).IsFaithful tag height where
  whole _ := rfl
  reads := by
    rintro y entries _ depth written rfl _
    cases known : is y with
    | false => simp [bare, known] at written
    | true =>
      obtain rfl : [] = entries := by simpa [bare, known] using written
      rw [only y known]
      exact ⟨rfl, rfl, by simp [keyed]⟩

theorem Variant.isFaithful_fielded {tag name : String} {start : ρ} {fields : List (Field α ρ)}
    {inject : ρ → σ} {project : σ → Option ρ} {height : Nat}
    (made : IsRecord start height fields) (untagged : ∀ f ∈ fields, f.name ≠ tag)
    (back : ∀ x r, project x = some r → inject r = x) :
    (Variant.fielded name start fields inject project).IsFaithful tag height where
  whole := by
    intro x entries written
    obtain ⟨r, _, rfl⟩ := Option.map_eq_some_iff.mp written
    exact made.whole r
  reads := by
    intro x entries entries' depth written abridged fits
    obtain ⟨r, projected, rfl⟩ := Option.map_eq_some_iff.mp written
    obtain ⟨decoded, clean⟩ := made.reads abridged fits
    refine ⟨by simp [fielded, decoded, back x r projected], clean, fun e member same => ?_⟩
    obtain ⟨f, known, name⟩ := AbridgesEntries.name_mem abridged e member
    rw [name, Option.some.injEq] at same
    exact untagged f known same

/-- The alternatives have different names, each is faithful, and every value is of one of them. -/
structure IsTagged (tag : String) (variants : List (Variant α σ)) (height : Nat) : Prop where
  distinct : (variants.map (·.name)).Nodup
  faithful : ∀ v ∈ variants, v.IsFaithful tag height
  total : ∀ x, ∃ v ∈ variants, (v.encode x).isSome

/-- Behind the tag all other entries are kept. -/
theorem splitTag_of_untagged {tag : String} {variants : List (Variant α σ)} {depth : Nat}
    {v : Variant α σ} {entries : List (Option String × Document α)}
    (clean : readFaultEntries depth entries = none) (untagged : ∀ e ∈ entries, e.1 ≠ some tag) :
    splitTag tag variants depth none (some v) entries = .ok (v, entries) := by
  induction entries with
  | nil => rfl
  | cons e rest ih =>
    obtain ⟨key, d⟩ := e
    cases key with
    | none => simp [readFaultEntries] at clean
    | some key =>
      obtain ⟨here, later⟩ := readFaultEntries_cons.mp clean
      have other : (key == tag) = false := by simpa using untagged (some key, d) (by simp)
      have others := ih later fun e member => untagged e (by simp [member])
      simp [splitTag, other, here, others, failing, bind, Except.bind, pure, Except.pure]

theorem isFaithful_tagged {tag : String} {variants : List (Variant α σ)} {height : Nat}
    (made : IsTagged tag variants height) : (tagged tag variants).IsFaithful (height + 1) := by
  have written (x : σ) : ∃ v ∈ variants, ∃ entries, v.encode x = some entries ∧
      (tagged tag variants).encode x =
        .object ((some tag, .string v.name) :: keyed entries) none := by
    obtain ⟨w, within, some⟩ := made.total x
    cases named : variants.findSome? fun v => (v.encode x).map fun es => (v.name, es) with
    | none =>
      have none := List.findSome?_eq_none_iff.mp named w within
      simp only [Option.map_eq_none_iff] at none
      simp [none] at some
    | some found =>
      obtain ⟨v, member, mapped⟩ := List.exists_of_findSome?_eq_some named
      obtain ⟨entries, encoded, rfl⟩ := Option.map_eq_some_iff.mp mapped
      exact ⟨v, member, entries, encoded, by simp [tagged, named, ofEntries, keyed]⟩
  refine { whole := fun x => ?_, reads := fun {x d depth} abridged fits => ?_ }
  · obtain ⟨v, member, entries, encoded, document⟩ := written x
    exact ⟨v, member, _, _, document, document, (made.faithful v member).whole encoded⟩
  · obtain ⟨v, member, entries, encoded, document⟩ := written x
    obtain ⟨w, within, full, left, document', rfl, abridged⟩ := abridged
    rw [document] at document'
    simp only [Document.object.injEq, List.cons.injEq, Prod.mk.injEq, Document.string.injEq,
      true_and, and_true] at document'
    obtain ⟨name, rfl⟩ := document'
    have found := find?_of_nodup Variant.name made.distinct member
    obtain rfl : w = v := by
      have found' := find?_of_nodup Variant.name made.distinct within
      rw [← name] at found'
      exact Option.some.inj (found'.symm.trans found)
    obtain ⟨enters, shallow, _⟩ := enter_eq_ok fits
    obtain ⟨decoded, clean, untagged⟩ := (made.faithful w member).reads encoded abridged fits
    have split : splitTag tag variants (depth + 1) none (some w) left = .ok (w, left) :=
      splitTag_of_untagged clean untagged
    have shaped : ofShape (w.decode depth (.object left none)) = .ok x := by
      rw [decoded]
      rfl
    constructor
    · simp [tagged, decodeTagged, enters, splitTag, decodeTag, found, split, shaped, bind,
        Except.bind]
    · simp [readFault, shallow, readFaultEntries, clean]

end Codec
end DebrisDisk
