import TraceJournal.Shape.Error

/-!
# Reading by shape

A source is a part of a document that has been found but not yet understood. What is wanted of
it decides how it is read: as a number of a given width, as one of several names, or as a
compound value with declared fields, which may be written under their names or as a list in
declared order. Faults are met in reading order: a value is read when its name is met, and what
is missing is noticed at the end.
-/
namespace TraceJournal

/-- The name of a member: a text, or the position of a declared name. -/
inductive Key where
  | name (text : String)
  | position (n : Nat)
deriving DecidableEq, Repr

/-- The parts of a list, and what keeps it from going on properly after them. -/
structure Items (ν : Type) where
  items : List ν
  stop : Option ReadFault

inductive Compound (ν : Type) where
  | list (items : Items ν)
  | named (members : List (Except ReadFault Key × ν)) (stop : Option ReadFault)

/-- How parts `ν` of documents of one kind are read. -/
class Source (ν : Type) where
  /-- A natural number below `2 ^ bits`. -/
  natural (bits : Nat) : ν → Except ReadFault Nat
  boolean : ν → Except ReadFault Bool
  /-- A text; `expected` says what it should be. -/
  text (expected : String) : ν → Except ReadFault String
  /-- Whether there is a value at all; what does not read as nothing is read as a value. -/
  isNull : ν → Bool
  /-- One of several names, by its position among them. -/
  choice (known : List String) : ν → Except ReadFault Nat
  items : ν → Except ReadFault (Items ν)
  /-- A compound value; `expected` says what it should be. -/
  compound (expected : String) : ν → Except ReadFault (Compound ν)
  /-- What is left of a list of which `used` parts were wanted must be nothing. -/
  close (used : Nat) : Items ν → Except ReadFault Unit
  /-- Passes over a part that nobody wants. -/
  skip : ν → Except ReadFault Unit

def wrongShape {α : Type} (error : ShapeError) : Except ReadFault α := .error (.shape error)

/-- Whether a field may be missing, and what stands for it then. -/
inductive Presence (α : Type) where
  /-- The field must be there. -/
  | required
  /-- The field may be missing. -/
  | defaulted (value : α)
  /-- The field may be missing among named members, but not in a list. -/
  | nullable (value : α)

/-- The declared fields of a compound value, in order: the name of each, whether it may be
missing, and how it is read. -/
inductive Fields (ν : Type) : List Type → Type 1 where
  | nil : Fields ν []
  | cons {α : Type} {αs : List Type} (name : String) (presence : Presence α)
      (read : ν → Except ReadFault α) (rest : Fields ν αs) : Fields ν (α :: αs)

abbrev Values : List Type → Type
  | [] => Unit
  | α :: αs => α × Values αs

/-- At most one value of each type. -/
abbrev Slots : List Type → Type
  | [] => Unit
  | α :: αs => Option α × Slots αs

namespace Fields

variable {ν : Type}

def names : {αs : List Type} → Fields ν αs → List String
  | _, nil => []
  | _, cons name _ _ rest => name :: rest.names

def blank : {αs : List Type} → Fields ν αs → Slots αs
  | _, nil => ()
  | _, cons _ _ _ rest => (none, rest.blank)

def selects (name : String) : Key → Bool
  | .name text => text == name
  | .position n => n == 0

/-- The same key among the fields after the first. -/
def next : Key → Key
  | .name text => .name text
  | .position n => .position (n - 1)

/-- Reads the value of the field that `key` names and puts it into its slot; `none` if no field
has that name. -/
def store (key : Key) (source : ν) :
    {αs : List Type} → Fields ν αs → Slots αs → Option (Except ReadFault (Slots αs))
  | _, nil, _ => none
  | _, cons name _ read rest, (slot, slots) =>
    if selects name key then
      some (match slot with
        | some _ => wrongShape (.duplicateField name)
        | none => (read source).map fun value => (some value, slots))
    else (store (next key) source rest slots).map (·.map fun slots => (slot, slots))

/-- The values of all fields; the first declared one that is missing is reported. -/
def complete : {αs : List Type} → Fields ν αs → Slots αs → Except ReadFault (Values αs)
  | _, nil, _ => .ok ()
  | _, cons name presence _ rest, (slot, slots) => do
    let value ← match slot, presence with
      | some value, _ => .ok value
      | none, .defaulted value => .ok value
      | none, .nullable value => .ok value
      | none, .required => wrongShape (.missingField name)
    return (value, ← rest.complete slots)

/-- Reads fields from the front of a list. Returns their values, how many parts were used and
what follows them. -/
def readList (expected : String) : {αs : List Type} → Fields ν αs → Nat → Items ν →
    Except ReadFault (Values αs × Nat × Items ν)
  | _, nil, used, items => .ok ((), used, items)
  | _, cons _ presence read rest, used, ⟨items, stop⟩ =>
    match items with
    | item :: items => do
      let value ← read item
      let (values, used, items) ← rest.readList expected (used + 1) ⟨items, stop⟩
      return ((value, values), used, items)
    | [] =>
      match stop, presence with
      | some fault, _ => .error fault
      | none, .defaulted value => do
        let (values, used, items) ← rest.readList expected used ⟨[], none⟩
        return ((value, values), used, items)
      | none, _ => wrongShape (.wrongLength used expected)

variable [Source ν]

/-- Reads members in order. A name that is not declared is passed over, or refused if `strict`. -/
def readMembers {αs : List Type} (fields : Fields ν αs) (strict : Bool) :
    List (Except ReadFault Key × ν) → Slots αs → Except ReadFault (Slots αs)
  | [], slots => .ok slots
  | (key, source) :: members, slots => do
    let key ← key
    match fields.store key source slots, strict, key with
    | some stored, _, _ => fields.readMembers strict members (← stored)
    | none, true, .name text => wrongShape (.unknownField text fields.names)
    | none, _, _ => do
      Source.skip source
      fields.readMembers strict members slots

/-- Reads a compound value with these fields. `title` says what it is. -/
def read {αs : List Type} (fields : Fields ν αs) (title : String) (strict : Bool) (source : ν) :
    Except ReadFault (Values αs) := do
  match ← Source.compound title source with
  | .list items =>
    let expected := title ++ s!" with {fields.names.length} elements"
    let (values, used, rest) ← fields.readList expected 0 items
    Source.close used rest
    return values
  | .named members stop =>
    let slots ← fields.readMembers strict members fields.blank
    match stop with
    | some fault => .error fault
    | none => fields.complete slots

end Fields

namespace Source

variable {ν : Type} [Source ν]

def list {α : Type} (read : ν → Except ReadFault α) (source : ν) : Except ReadFault (List α) := do
  let ⟨items, stop⟩ ← Source.items source
  let values ← items.mapM read
  match stop with
  | some fault => .error fault
  | none => return values

def uint8 (source : ν) : Except ReadFault UInt8 := UInt8.ofNat <$> natural 8 source

def uint16 (source : ν) : Except ReadFault UInt16 := UInt16.ofNat <$> natural 16 source

def uint32 (source : ν) : Except ReadFault UInt32 := UInt32.ofNat <$> natural 32 source

def uint64 (source : ν) : Except ReadFault Nat := natural 64 source

def nullable {α : Type} (read : ν → Except ReadFault α) (source : ν) :
    Except ReadFault (Option α) :=
  if isNull source then .ok none else some <$> read source

def oneOf {α : Type} (all : List α) (name : α → String) (source : ν) : Except ReadFault α := do
  let n ← choice (all.map name) source
  match all[n]? with
  | some value => .ok value
  | none => .error .malformed

end Source

end TraceJournal
