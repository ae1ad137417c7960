import TraceJournal.Shape.Source
import TraceJournal.Text.Utf8
import TraceJournal.Value

/-!
# Buffered data

Data that was read whole before it is known what is wanted of it. All faults of form have been
met by then; what remains are differences of shape.
-/
namespace TraceJournal

/-- What a self-describing document can say. A member of a map may have any datum as its key. -/
inductive Datum where
  | null
  /-- An option without a value, where the format tells it from a null. -/
  | absent
  | bool (b : Bool)
  | int (n : Int)
  | float (x : Float)
  | text (s : String)
  | bytes (b : List UInt8)
  | list (items : List Datum)
  | map (members : List (Datum × Datum))
deriving Inhabited

namespace Datum

/-- How the datum is described in an error. -/
def found : Datum → Found
  | null => .null
  | absent => .option
  | bool b => .bool b
  | int n => .int n
  | float x => .float x
  | text s => .text s
  | bytes _ => .bytes
  | list _ => .list
  | map _ => .object

def wrongType {α : Type} (d : Datum) (expected : String) : Except ReadFault α :=
  wrongShape (.wrongType d.found expected)

def natural (bits : Nat) : Datum → Except ReadFault Nat
  | int n =>
    if 0 ≤ n ∧ n.toNat < Nat.pow 2 bits then .ok n.toNat
    else wrongShape (.wrongValue (.int n) s!"u{bits}")
  | d => d.wrongType s!"u{bits}"

def boolean : Datum → Except ReadFault Bool
  | bool b => .ok b
  | d => d.wrongType "a boolean"

def readText (expected : String) : Datum → Except ReadFault String
  | text s => .ok s
  | d => d.wrongType expected

def isNull : Datum → Bool
  | null | absent => true
  | _ => false

def variantNamed (known : List String) (name : String) : Except ReadFault Nat :=
  match known.findIdx? (· == name) with
  | some n => .ok n
  | none => wrongShape (.unknownVariant name known)

/-- The position of a name, or a position itself, among the known names. -/
def variant (known : List String) : Datum → Except ReadFault Nat
  | text s => variantNamed known s
  | int n =>
    if n < 0 then wrongShape (.wrongType (.int n) "variant identifier")
    else if n < known.length then .ok n.toNat
    else wrongShape (.wrongValue (.int n) s!"variant index 0 <= i < {known.length}")
  | bytes b => variantNamed known (Text.ofUtf8Lossy b)
  | d => d.wrongType "variant identifier"

/-- A choice is a name, or a map from the one chosen name to nothing. -/
def choice (known : List String) : Datum → Except ReadFault Nat
  | text s => variant known (text s)
  | map [(key, value)] => do
    let n ← variant known key
    match value with
    | null | map [] => return n
    | d => d.wrongType "unit"
  | map _ => wrongShape (.wrongValue .object "map with a single key")
  | d => d.wrongType "string or map"

def key : Datum → Except ReadFault Key
  | text s => .ok (.name s)
  | int n =>
    if n < 0 then wrongShape (.wrongType (.int n) "field identifier") else .ok (.position n.toNat)
  | bytes b => .ok (.name (Text.ofUtf8Lossy b))
  | d => d.wrongType "field identifier"

def items : Datum → Except ReadFault (Items Datum)
  | list items => .ok ⟨items, none⟩
  | d => d.wrongType "a sequence"

def compound (expected : String) : Datum → Except ReadFault (Compound Datum)
  | list items => .ok (.list ⟨items, none⟩)
  | map members => .ok (.named (members.map fun (k, v) => (k.key, v)) none)
  | d => d.wrongType expected

/-- A list that is too long has a wrong length. -/
def close (used : Nat) (rest : Items Datum) : Except ReadFault Unit :=
  if rest.items.isEmpty then .ok ()
  else
    let unit := if used = 1 then "element" else "elements"
    wrongShape (.wrongLength (used + rest.items.length) s!"{used} {unit} in sequence")

mutual

/-- The datum as plain data. Bytes have no place there, and all names have to be texts. -/
def toValue : Datum → Except ReadFault Value
  | null | absent => .ok .null
  | bool b => .ok (.bool b)
  | int n => .ok (.int n)
  | float x => .ok (if x.isFinite then .float x else .null)
  | text s => .ok (.text s)
  | bytes b => (bytes b).wrongType "any valid JSON value"
  | list items => .list <$> toValues items
  | map members => Value.sorted <$> toMembers members

def toValues : List Datum → Except ReadFault (List Value)
  | [] => .ok []
  | item :: items => do return (← toValue item) :: (← toValues items)

def toMembers : List (Datum × Datum) → Except ReadFault (List (String × Value))
  | [] => .ok []
  | (key, value) :: members => do
    let name ← key.readText "str"
    return (name, ← toValue value) :: (← toMembers members)

end

instance : Source Datum where
  natural := natural
  boolean := boolean
  text := readText
  isNull := isNull
  choice := choice
  items := items
  compound := compound
  close := close
  skip _ := .ok ()

end Datum

end TraceJournal
