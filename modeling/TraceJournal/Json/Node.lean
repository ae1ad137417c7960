import TraceJournal.Json.Doc
import TraceJournal.Shape.Datum

/-!
# Reading JSON

How values are read off the tree of a text. Reading a list or an object takes one level of
depth, of which there are only so many; passing over a value that nobody wants takes none, and
needs no more of it than its form.
-/
namespace TraceJournal.Json

/-- A part of a text, and how many levels of lists and objects it may open. -/
structure Node where
  depth : Nat
  doc : Doc

def maxDepth : Nat := 127

namespace Node

/-- Fails because of a value of another type. Of a number or a string the value is read first. -/
def wrongType {α : Type} (doc : Doc) (expected : String) : Except ReadFault α :=
  match doc with
  | .null => wrongShape (.wrongType .null expected)
  | .bool b => wrongShape (.wrongType (.bool b) expected)
  | .number value _ => do
    match ← value with
    | .int n => wrongShape (.wrongType (.int n) expected)
    | .float x => wrongShape (.wrongType (.float x) expected)
  | .string value _ => do wrongShape (.wrongType (.text (← value)) expected)
  | .list _ _ => wrongShape (.wrongType .list expected)
  | .object _ _ => wrongShape (.wrongType .object expected)
  | .word fault => .error fault
  | .absent fault => .error fault

def deeper (depth : Nat) : Except ReadFault Nat :=
  match depth with
  | 0 => .error .tooDeep
  | depth + 1 => .ok depth

def natural (bits : Nat) (node : Node) : Except ReadFault Nat :=
  match node.doc with
  | .number value _ => do
    match ← value with
    | .int n =>
      if 0 ≤ n ∧ n.toNat < Nat.pow 2 bits then return n.toNat
      else wrongShape (.wrongValue (.int n) s!"u{bits}")
    | .float x => wrongShape (.wrongType (.float x) s!"u{bits}")
  | doc => wrongType doc s!"u{bits}"

def boolean (node : Node) : Except ReadFault Bool :=
  match node.doc with
  | .bool b => .ok b
  | doc => wrongType doc "a boolean"

def string (expected : String) (node : Node) : Except ReadFault String :=
  match node.doc with
  | .string value _ => value
  | doc => wrongType doc expected

def unit (node : Node) : Except ReadFault Unit :=
  match node.doc with
  | .null => .ok ()
  | doc => wrongType doc "unit"

def isNull (node : Node) : Bool :=
  match node.doc with
  | .null => true
  | _ => false

def variant (known : List String) (node : Node) : Except ReadFault Nat := do
  Datum.variantNamed known (← node.string "variant identifier")

/-- The text of a key. Anything but a string is malformed, unless the text ends there. -/
def keyText : Doc → Except ReadFault String
  | .string value _ => value
  | .absent fault => .error fault
  | _ => .error .malformed

/-- A choice is a name, or an object with the chosen name as its one key and null as its
value. Anything that starts neither a string nor an object is malformed here. -/
def choice (known : List String) (node : Node) : Except ReadFault Nat :=
  match node.doc with
  | .string _ _ => node.variant known
  | .object members stop => do
    let depth ← deeper node.depth
    match members with
    | [] => .error (stop.getD .malformed)
    | (key, value) :: rest =>
      let n ← Datum.variantNamed known (← keyText key)
      (⟨depth, value⟩ : Node).unit
      match rest, stop with
      | [], none => return n
      | [], some fault => .error fault
      | _ :: _, _ => .error .malformed
  | .absent fault => .error fault
  | _ => .error .malformed

def items (node : Node) : Except ReadFault (Items Node) :=
  match node.doc with
  | .list items stop => do
    let depth ← deeper node.depth
    return ⟨items.map (⟨depth, ·⟩), stop⟩
  | doc => wrongType doc "a sequence"

def compound (expected : String) (node : Node) : Except ReadFault (Compound Node) :=
  match node.doc with
  | .list items stop => do
    let depth ← deeper node.depth
    return .list ⟨items.map (⟨depth, ·⟩), stop⟩
  | .object members stop => do
    let depth ← deeper node.depth
    return .named (members.map fun (key, value) => (.name <$> keyText key, ⟨depth, value⟩)) stop
  | doc => wrongType doc expected

/-- A list that goes on after its last wanted part is malformed. -/
def close (_used : Nat) (rest : Items Node) : Except ReadFault Unit :=
  match rest.items, rest.stop with
  | _ :: _, _ => .error .malformed
  | [], some fault => .error fault
  | [], none => .ok ()

mutual

def skip : Doc → Except ReadFault Unit
  | .null | .bool _ => .ok ()
  | .number _ passed | .string _ passed =>
    match passed with
    | none => .ok ()
    | some fault => .error fault
  | .list items stop => do
    skipItems items
    match stop with
    | none => .ok ()
    | some fault => .error fault
  | .object members stop => do
    skipMembers members
    match stop with
    | none => .ok ()
    | some fault => .error fault
  | .word fault | .absent fault => .error fault

def skipItems : List Doc → Except ReadFault Unit
  | [] => .ok ()
  | item :: items => do
    skip item
    skipItems items

def skipMembers : List (Doc × Doc) → Except ReadFault Unit
  | [] => .ok ()
  | (key, value) :: members => do
    match key with
    | .string _ none => skip value
    | .string _ (some fault) | .absent fault => .error fault
    | _ => .error .malformed
    skipMembers members

end

instance : Source Node where
  natural := natural
  boolean := boolean
  text := string
  isNull := isNull
  choice := choice
  items := items
  compound := compound
  close := close
  skip node := skip node.doc

mutual

/-- Reads any value, with `depth` levels left to open. -/
def datum (depth : Nat) : Doc → Except ReadFault Datum
  | .null => .ok .null
  | .bool b => .ok (.bool b)
  | .number value _ => do
    match ← value with
    | .int n => return .int n
    | .float x => return .float x
  | .string value _ => .text <$> value
  | .list items stop => do
    let inner ← deeper depth
    let items ← datumItems inner items
    match stop with
    | none => return .list items
    | some fault => .error fault
  | .object members stop => do
    let inner ← deeper depth
    let members ← datumMembers inner members
    match stop with
    | none => return .map members
    | some fault => .error fault
  | .word fault | .absent fault => .error fault

def datumItems (depth : Nat) : List Doc → Except ReadFault (List Datum)
  | [] => .ok []
  | item :: items => do
    let item ← datum depth item
    return item :: (← datumItems depth items)

def datumMembers (depth : Nat) : List (Doc × Doc) → Except ReadFault (List (Datum × Datum))
  | [] => .ok []
  | (key, value) :: members => do
    let key ← keyText key
    let value ← datum depth value
    return (.text key, value) :: (← datumMembers depth members)

end

def value (node : Node) : Except ReadFault Value := do
  (← datum node.depth node.doc).toValue

end Node

/-- Reads a whole text. That nothing follows its value is checked last. -/
def read {α : Type} (reader : Node → Except ReadFault α) (text : List UInt8) :
    Except ReadFault α := do
  let (doc, more) := Doc.ofText text
  let result ← reader ⟨maxDepth, doc⟩
  if more then .error .malformed else return result

end TraceJournal.Json
