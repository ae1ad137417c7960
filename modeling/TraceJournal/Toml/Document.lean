import TraceJournal.Toml.Moment
import TraceJournal.Toml.Table

/-!
# TOML documents

A document is a list of statements, one a line: a key with a value, or the header of a table.
Values may be nested only so deep, and keys have only so many parts.
-/
namespace TraceJournal.Toml

open Scan

/-- The least number of parts that a key cannot have, and of lists in each other. -/
def depthLimit : Nat := 80

namespace Key

def isBare (c : Char) : Bool :=
  ('a' ≤ c && c ≤ 'z') || ('A' ≤ c && c ≤ 'Z') || ('0' ≤ c && c ≤ '9') || c == '_' || c == '-'

/-- A part of a key, and the blanks around it. -/
def part : Scan String := do
  blanks
  let name ← quotedLine <|> do
    let first ← satisfy isBare
    return String.ofList (first :: (← run isBare))
  blanks
  return name

end Key

def key : Scan KeyPath := do
  let first ← Key.part
  let rest ← many do
    match ← peek? with
    | some '.' => do
      char '.'
      some <$> Key.part
    | _ => return none
  let parts := first :: rest
  if depthLimit ≤ parts.length then failure
  return ⟨parts.dropLast, parts.getLastD ""⟩

def assignment (value : Scan Datum) : Scan (KeyPath × Datum) := do
  let key ← key
  char '='
  blanks
  return (key, ← value)

/-- Values between brackets. A comma may follow the last one. -/
def list (value : Scan Datum) : Scan Datum := do
  char '['
  gap
  let first ← many do
    match ← peek? with
    | some ']' => return none
    | _ => do
      let item ← value
      gap
      match ← peek? with
      | some ']' => return some item
      | _ => do
        char ','
        gap
        return some item
  char ']'
  return .list first

/-- Keys and values between braces, on one line. -/
def inlineTable (value : Scan Datum) : Scan Datum := do
  char '\x7B'
  blanks
  let member : Scan (KeyPath × Datum) := do
    let member ← assignment value
    blanks
    return member
  let members ← match ← peek? with
    | some '\x7D' => pure []
    | _ => do
      let first ← member
      let rest ← many do
        match ← peek? with
        | some ',' => do
          char ','
          some <$> member
        | _ => return none
      pure (first :: rest)
  char '\x7D'
  let entries ← members.foldlM (fun entries (key, datum) => Entries.assign key datum entries) []
  return .map (entriesData entries)

/-- A value that holds no other. A moment is described as a map. -/
def simple : Scan Datum :=
  (do word ['t', 'r', 'u', 'e']; return .bool true)
    <|> (do word ['f', 'a', 'l', 's', 'e']; return .bool false)
    <|> (do moment; return .map [])
    <|> number
    <|> Datum.text <$> quotedText

/-- A value with at most `depth` values around each other in it. -/
def value : Nat → Scan Datum
  | 0 => simple
  | depth + 1 => list (value depth) <|> inlineTable (value depth) <|> simple

def header : Scan Statement :=
  (do
    word ['[', '[']
    let key ← key
    word [']', ']']
    return .element key)
    <|> do
      char '['
      let key ← key
      char ']'
      return .table key

def line : Scan (Option Statement) := do
  blanks
  let statement ← match ← peek? with
    | none | some '\n' | some '\r' | some '#' => pure none
    | some '[' => some <$> header
    | some _ => do
      let (key, datum) ← assignment (value (depthLimit - 1))
      pure (some (.assign key datum))
  lineEnd
  return statement

def document : Scan (List (Option Statement)) := do
  let _ ← optional (char '\uFEFF')
  many do
    if (← get).isEmpty then return none else some <$> line

/-- The table that a text describes, if it is a document. -/
def parse? (text : String) : Option Datum := do
  let (lines, _) ← document text.toList
  return .map (entriesData (← Draft.read (lines.filterMap id)))

def read {α : Type} (reader : Datum → Except ReadFault α) (text : String) :
    Except ReadFault α :=
  match parse? text with
  | some table => reader table
  | none => .error .malformed

end TraceJournal.Toml
