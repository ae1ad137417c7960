import TraceJournal.Shape.Datum

/-!
# Tables of a TOML document

A table grows as the lines of a document are read. It is either opened by a header of its own,
or comes into being on the way to something below it: by the path of a header, which leaves it
open for a header of its own, or by a dotted key, which does not. What has been given a value
stays as it is.
-/
namespace TraceJournal.Toml

inductive Origin where
  | header | path | dotted
deriving DecidableEq, Repr

/-- What a key leads to: a value, a table, or a list of tables of which the last one grows. -/
inductive Item where
  | value (datum : Datum)
  | table (origin : Origin) (entries : List (String × Item))
  | tables (elements : List (List (String × Item)))

abbrev Entries := List (String × Item)

/-- A key with the tables that it leads through. -/
structure KeyPath where
  parents : List String
  last : String
deriving DecidableEq, Repr

mutual

def Item.datum : Item → Datum
  | .value datum => datum
  | .table _ entries => .map (entriesData entries)
  | .tables elements => .list (tablesData elements)

def entriesData : List (String × Item) → List (Datum × Datum)
  | [] => []
  | (key, item) :: entries => (.text key, item.datum) :: entriesData entries

def tablesData : List (List (String × Item)) → List Datum
  | [] => []
  | entries :: elements => .map (entriesData entries) :: tablesData elements

end

namespace Entries

def replace (key : String) (item : Item) (entries : Entries) : Entries :=
  entries.map fun (other, old) => (other, if other == key then item else old)

/-- Changes the table at the end of a path, and creates those on the way that are missing. A
dotted key cannot lead into a table that has a header. -/
def alter {α : Type} (change : Origin → Entries → Option (α × Entries)) (dotted : Bool) :
    List String → Origin → Entries → Option (α × Entries)
  | [], origin, entries => change origin entries
  | key :: path, _, entries =>
    match entries.lookup key with
    | none => do
      let origin := if dotted then .dotted else .path
      let (result, inner) ← alter change dotted path origin []
      return (result, entries ++ [(key, .table origin inner)])
    | some (.value _) => none
    | some (.table origin inner) =>
      if dotted && origin == .header then none
      else do
        let (result, inner) ← alter change dotted path origin inner
        return (result, replace key (.table origin inner) entries)
    | some (.tables elements) => do
      let (result, inner) ← alter change dotted path .header (← elements.getLast?)
      return (result, replace key (.tables (elements.dropLast ++ [inner])) entries)

def add (key : String) (item : Item) (entries : Entries) : Option (Unit × Entries) :=
  if (entries.lookup key).isSome then none else some ((), entries ++ [(key, item)])

/-- Gives a value to a key that has none. A dotted key leads to a table that only such keys
have made. -/
def assign (key : KeyPath) (datum : Datum) (entries : Entries) : Option Entries := do
  let ((), entries) ← alter
    (fun origin entries =>
      if (origin == .dotted) == key.parents.isEmpty then none
      else add key.last (.value datum) entries)
    true key.parents .header entries
  return entries

/-- Takes out the entries of a table that a header may still open. -/
def release (key : String) (entries : Entries) : Option (Entries × Entries) :=
  match entries.lookup key with
  | none => some ([], entries)
  | some (.table .path inner) => some (inner, entries.filter (·.1 != key))
  | some _ => none

def append (key : String) (more : List Entries) (entries : Entries) : Option (Unit × Entries) :=
  match entries.lookup key with
  | none => some ((), entries ++ [(key, .tables more)])
  | some (.tables elements) => some ((), replace key (.tables (elements ++ more)) entries)
  | some _ => none

end Entries

/-- A line of a document that says something. -/
inductive Statement where
  | assign (key : KeyPath) (datum : Datum)
  | table (key : KeyPath)
  | element (key : KeyPath)

inductive Place where
  | root
  | table (key : KeyPath)
  | element (key : KeyPath)

/-- A document as it grows: the tables that are complete, and the one that its last header
opened. -/
structure Draft where
  root : Entries
  current : Entries
  place : Place

namespace Draft

def empty : Draft := ⟨[], [], .root⟩

/-- Changes the table that a key lies in, as the path of a header leads to it. -/
def within {α : Type} (key : KeyPath) (change : Entries → Option (α × Entries))
    (root : Entries) : Option (α × Entries) :=
  Entries.alter (fun _ entries => change entries) false key.parents .header root

def close (d : Draft) : Option Entries :=
  match d.place with
  | .root => some d.current
  | .table key => do
    let ((), root) ← within key (Entries.add key.last (.table .header d.current)) d.root
    return root
  | .element key => do
    let ((), root) ← within key (Entries.append key.last [d.current]) d.root
    return root

/-- Reads one statement. A list of tables is there from the header of its first one on. -/
def step (d : Draft) : Statement → Option Draft
  | .assign key datum => do return { d with current := ← Entries.assign key datum d.current }
  | .table key => do
    let (current, root) ← within key (Entries.release key.last) (← d.close)
    return ⟨root, current, .table key⟩
  | .element key => do
    let ((), root) ← within key (Entries.append key.last []) (← d.close)
    return ⟨root, [], .element key⟩

def read (statements : List Statement) : Option Entries := do
  (← statements.foldlM step empty).close

end Draft

end TraceJournal.Toml
