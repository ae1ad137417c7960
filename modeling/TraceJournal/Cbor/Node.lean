import TraceJournal.Cbor.Item
import TraceJournal.Message.Form

/-!
# Reading CBOR

How values are read off the tree of an input. Reading a list or a map takes one level of depth.
Where the kind of an item is known in advance, tags in front of it are passed over. Where it is
not, a tag in front of a few bytes may make a large integer of them. Any other tag takes a level
of depth; no value can hold what it tags, but it can be passed over.
-/
namespace TraceJournal.Cbor

/-- A part of an input, and how many levels of lists and maps it may open. -/
structure Node where
  depth : Nat
  item : Item

def maxDepth : Nat := 256

namespace Item

/-- A signed integer kept to 64 bits. -/
def wrapped (n : Nat) : Int := Int.bmod (-1 - n) UInt64.size

/-- How an item's head is described in an error. -/
def head : Item → Found
  | .unsigned n => .int n
  | .negative n => .int (wrapped n)
  | .bytes _ _ _ => .word "bytes"
  | .text _ _ => .word "string"
  | .list _ _ => .list
  | .map _ _ => .object
  | .tagged _ _ => .word "tag"
  | .simple 20 => .bool false
  | .simple 21 => .bool true
  | .simple 22 => .null
  | .simple 23 => .word "undefined"
  | .simple _ => .word "simple"
  | .float x => .float x
  | .stray => .word "break"
  | .absent _ => .null

def expected {α : Type} (item : Item) (kind : String) : Except ReadFault α :=
  match item with
  | .absent fault => .error fault
  | item => wrongShape (.wrongType item.head kind)

/-- An item without the tags in front of it. -/
def untagged : Item → Item
  | .tagged _ item => untagged item
  | item => item

def content (seen : List UInt8) (fault : Option ReadFault) : Except ReadFault (List UInt8) :=
  match fault with
  | none => .ok seen
  | some fault => .error fault

/-- The number that bytes write, if it fits 128 bits. That it does not may be seen before a
fault. -/
def large (item : Item) : Except ReadFault Nat :=
  match item with
  | .bytes _ seen fault => do
    let digits := seen.dropWhile (· == 0)
    if 16 < digits.length then wrongShape .bigIntegerTooLarge
    else BigEndian.value <$> content digits fault
  | item => item.expected "bytes"

/-- An integer, which may be large: its sign, and its value or that less than minus one. -/
def integer : Item → Except ReadFault (Bool × Nat)
  | .unsigned n => .ok (false, n)
  | .negative n => .ok (true, n)
  | .tagged 2 item => (false, ·) <$> large item
  | .tagged 3 item => (true, ·) <$> large item
  | .tagged _ item => integer item
  | item => item.expected "integer"

/-- The large integer that a tag makes of an item whose kind is not known in advance, if it makes
one: it does so only of bytes whose head gives a length of sixteen or less. -/
def largeInteger? (tag : Nat) (item : Item) : Except ReadFault (Option Int) :=
  match item with
  | .absent fault => .error fault
  | .bytes (some length) _ _ =>
    if 16 < length then return none
    else if tag = 2 then do return some (← item.large)
    else if tag = 3 then do
      let n ← item.large
      if Nat.pow 2 127 ≤ n then wrongShape .integerTooLarge else return some (-1 - n)
    else return none
  | _ => return none

def maxName : Nat := 4096

/-- The name that an item writes. A name has a definite length and is not too long. -/
def name (kind : String) (item : Item) : Except ReadFault String :=
  match item.untagged with
  | .text (some length) content =>
    if length ≤ maxName then content else item.untagged.expected kind
  | item => item.expected kind

/-- The name that an item writes, as text or as bytes. -/
def identifier (item : Item) : Except ReadFault String :=
  let kind := "str or bytes"
  match item.untagged with
  | .bytes (some length) seen fault =>
    if length ≤ maxName then Text.ofUtf8Lossy <$> content seen fault
    else item.untagged.expected kind
  | item => item.name kind

def fullText (item : Item) : Except ReadFault String :=
  match item.untagged with
  | .text _ content => content
  | item => item.expected "string"

/-- An integer too large for a word, in an error. -/
def describeLarge (n : Int) : Found :=
  let type := if n < 0 then "i128" else "u128"
  .word s!"integer `{n}` as {type}"

end Item

namespace Node

def deeper (depth : Nat) : Except ReadFault Nat :=
  match depth with
  | 0 => .error .tooDeep
  | depth + 1 => .ok depth

def natural (bits : Nat) (node : Node) : Except ReadFault Nat := do
  match ← node.item.integer with
  | (true, _) => wrongShape .negativeInteger
  | (false, n) =>
    if UInt64.size ≤ n then wrongShape .integerTooLarge
    else if n < Nat.pow 2 bits then return n
    else wrongShape (.wrongValue (.int n) s!"u{bits}")

def boolean (node : Node) : Except ReadFault Bool :=
  match node.item.untagged with
  | .simple 20 => .ok false
  | .simple 21 => .ok true
  | item => item.expected "bool"

def isNull (node : Node) : Bool :=
  match node.item with
  | .simple 22 | .simple 23 => true
  | _ => false

def variant (known : List String) (node : Node) : Except ReadFault Nat := do
  let name ← node.item.identifier
  match known.findIdx? (· == name) with
  | some n => return n
  | none => wrongShape (.unknownVariant name known)

/-- A choice is a name, or a map with the chosen name as its one key and null as its value. -/
def choice (known : List String) (node : Node) : Except ReadFault Nat := do
  match node.item.untagged with
  | .map (some 1) [(key, value)] =>
    let depth ← deeper node.depth
    let n ← (⟨depth, key⟩ : Node).variant known
    match value.untagged with
    | .simple 22 | .simple 23 => return n
    | value => value.expected "unit"
  | .text length content =>
    let depth ← deeper node.depth
    (⟨depth, .text length content⟩ : Node).variant known
  | item => item.expected "enum"

/-- The parts of a list. Bytes are a list of numbers. -/
def items (node : Node) : Except ReadFault (Items Node) :=
  match node.item.untagged with
  | .list _ items => do
    let depth ← deeper node.depth
    return ⟨items.map (⟨depth, ·⟩), none⟩
  | .bytes _ seen fault => do
    let content ← Item.content seen fault
    return ⟨content.map fun b => ⟨node.depth, .unsigned b.toNat⟩, none⟩
  | item => item.expected "array"

def compound (_expected : String) (node : Node) : Except ReadFault (Compound Node) :=
  match node.item.untagged with
  | .map _ members => do
    let depth ← deeper node.depth
    return .named (members.map fun (key, value) => (.name <$> key.identifier, ⟨depth, value⟩)) none
  | item => item.expected "map"

mutual

def skip (depth : Nat) : Item → Except ReadFault Unit
  | .unsigned _ | .negative _ | .float _ => .ok ()
  | .bytes _ seen fault => (Item.content seen fault).map fun _ => ()
  | .text _ content => content.map fun _ => ()
  | .list _ items => do
    let depth ← deeper depth
    skipItems depth items
  | .map _ members => do
    let depth ← deeper depth
    skipMembers depth members
  | .tagged tag item => do
    match ← item.largeInteger? tag with
    | some _ => return ()
    | none =>
      let depth ← deeper depth
      skip depth item
  | .simple n =>
    if 20 ≤ n ∧ n ≤ 23 then .ok () else Item.expected (.simple n) "known simple value"
  | .stray => Item.expected .stray "non-break"
  | .absent fault => .error fault

def skipItems (depth : Nat) : List Item → Except ReadFault Unit
  | [] => .ok ()
  | item :: items => do
    skip depth item
    skipItems depth items

def skipMembers (depth : Nat) : List (Item × Item) → Except ReadFault Unit
  | [] => .ok ()
  | (key, value) :: members => do
    skip depth key
    skip depth value
    skipMembers depth members

end

instance : Source Node where
  natural := natural
  boolean := boolean
  text _ node := node.item.fullText
  isNull := isNull
  choice := choice
  items := items
  compound := compound
  close _ _ := .ok ()
  skip node := skip node.depth node.item

/-- Fails because no value can hold an integer that is too large for a word. -/
def refuseLarge {α : Type} (kind : String) (n : Int) : Except ReadFault α :=
  wrongShape (.wrongType (Item.describeLarge n) kind)

mutual

/-- Reads any item, with `depth` levels left to open. `kind` says what it should be. -/
def datum (kind : String) (depth : Nat) : Item → Except ReadFault Datum
  | .unsigned n => .ok (.int n)
  | .negative n => if n < Nat.pow 2 63 then .ok (.int (-1 - n)) else refuseLarge kind (-1 - n)
  | .bytes _ seen fault => .bytes <$> Item.content seen fault
  | .text _ content => .text <$> content
  | .list _ items => do
    let depth ← deeper depth
    .list <$> datumItems depth items
  | .map _ members => do
    let depth ← deeper depth
    .map <$> datumMembers depth members
  | .tagged tag item => do
    match ← item.largeInteger? tag with
    | some n => refuseLarge kind n
    | none =>
      let _ ← deeper depth
      wrongShape .taggedVariant
  | .simple n =>
    match n with
    | 20 => .ok (.bool false)
    | 21 => .ok (.bool true)
    | 22 | 23 => .ok .absent
    | n => Item.expected (.simple n) "known simple value"
  | .float x => .ok (.float x)
  | .stray => Item.expected .stray "non-break"
  | .absent fault => .error fault

def datumItems (depth : Nat) : List Item → Except ReadFault (List Datum)
  | [] => .ok []
  | item :: items => do
    let item ← datum "any value" depth item
    return item :: (← datumItems depth items)

def datumMembers (depth : Nat) : List (Item × Item) → Except ReadFault (List (Datum × Datum))
  | [] => .ok []
  | (key, value) :: members => do
    let key ← datum "any value" depth key
    let value ← datum "any value" depth value
    return (key, value) :: (← datumMembers depth members)

end

/-- An integer as plain data, which holds 64 bits. -/
def integerValue (n : Int) : Except ReadFault Value :=
  if -0x8000000000000000 ≤ n ∧ n < 0x10000000000000000 then .ok (.int n)
  else wrongShape .numberOutOfRange

/-- What plain data should be, in an error. -/
def anyValue : String := "any valid JSON value"

mutual

/-- Reads any item as plain data, with `depth` levels left to open. -/
def plainValue (depth : Nat) : Item → Except ReadFault Value
  | .unsigned n => integerValue n
  | .negative n => integerValue (-1 - n)
  | .bytes _ seen fault => do
    let _ ← Item.content seen fault
    wrongShape (.wrongType .bytes anyValue)
  | .text _ content => .text <$> content
  | .list _ items => do
    let depth ← deeper depth
    .list <$> plainItems depth items
  | .map _ members => do
    let depth ← deeper depth
    Value.sorted <$> plainMembers depth (Item.name "str") members
  | .tagged tag item => do
    match ← item.largeInteger? tag with
    | some n => integerValue n
    | none =>
      let _ ← deeper depth
      wrongShape (.wrongType .variant anyValue)
  | .simple n =>
    match n with
    | 20 => .ok (.bool false)
    | 21 => .ok (.bool true)
    | 22 | 23 => .ok .null
    | n => Item.expected (.simple n) "known simple value"
  | .float x => .ok (if x.isFinite then .float x else .null)
  | .stray => Item.expected .stray "non-break"
  | .absent fault => .error fault

def plainItems (depth : Nat) : List Item → Except ReadFault (List Value)
  | [] => .ok []
  | item :: items => do
    let item ← plainValue depth item
    return item :: (← plainItems depth items)

/-- The first name has to be short and of definite length, the others not. -/
def plainMembers (depth : Nat) (name : Item → Except ReadFault String) :
    List (Item × Item) → Except ReadFault (List (String × Value))
  | [] => .ok []
  | (key, value) :: members => do
    let key ← name key
    let value ← plainValue depth value
    return (key, value) :: (← plainMembers depth Item.fullText members)

end

def value (node : Node) : Except ReadFault Value := plainValue node.depth node.item

def messageTag (node : Node) : Except ReadFault MessageTag := do
  let n ← node.variant (MessageTag.all.map MessageTag.name)
  match MessageTag.all[n]? with
  | some tag => return tag
  | none => .error .malformed

/-- What the key of a message's member should be, in an error. -/
def memberKind : String := "a type tag `msg` or any other value"

def isTagKey : Datum → Bool
  | .text name => name == MessageTag.member
  | .bytes name => name == Text.utf8 MessageTag.member
  | _ => false

/-- Reads members up to the end, and keeps the tag apart from the others. -/
def messageMembers (depth : Nat) : List (Item × Item) → Option MessageTag →
    List (Datum × Datum) → Except ReadFault (Option MessageTag × List (Datum × Datum))
  | [], tag, fields => .ok (tag, fields.reverse)
  | (key, value) :: members, tag, fields => do
    let key ← datum memberKind depth key
    if isTagKey key then
      match tag with
      | some _ => wrongShape (.duplicateField MessageTag.member)
      | none => do
        let tag ← messageTag ⟨depth, value⟩
        messageMembers depth members (some tag) fields
    else
      let value ← datum "any value" depth value
      messageMembers depth members tag ((key, value) :: fields)

def message (node : Node) : Except ReadFault Message :=
  match node.item with
  | .map _ members => do
    let depth ← deeper node.depth
    match ← messageMembers depth members none [] with
    | (none, _) => wrongShape (.missingField MessageTag.member)
    | (some tag, fields) => Message.ofFields tag (.map fields)
  | .list _ items => do
    let depth ← deeper node.depth
    match items with
    | [] => wrongShape (.missingField MessageTag.member)
    | first :: rest =>
      let tag ← messageTag ⟨depth, first⟩
      let fields ← datumItems depth rest
      Message.ofFields tag (.list fields)
  | .tagged tag item => do
    match ← item.largeInteger? tag with
    | some n => refuseLarge Message.expected n
    | none =>
      let _ ← deeper node.depth
      wrongShape (.wrongType .variant Message.expected)
  | item => do (← datum Message.expected node.depth item).wrongType Message.expected

end Node

def read {α : Type} (reader : Node → Except ReadFault α) (input : List UInt8) :
    Except ReadFault α :=
  reader ⟨maxDepth, Item.ofBytes input⟩

end TraceJournal.Cbor
