import TraceJournal.Json.Node
import TraceJournal.Message.Form

/-!
# Messages in JSON

A message is read up to its end before its fields are looked at; only its tag is understood as
soon as it is met.
-/
namespace TraceJournal

namespace Json.Node

def messageTag (node : Node) : Except ReadFault MessageTag := do
  let n ← node.variant (MessageTag.all.map MessageTag.name)
  match MessageTag.all[n]? with
  | some tag => return tag
  | none => .error .malformed

/-- Reads members up to the end, and keeps the tag apart from the others. -/
def messageMembers (depth : Nat) : List (Doc × Doc) → Option MessageTag →
    List (Datum × Datum) → Except ReadFault (Option MessageTag × List (Datum × Datum))
  | [], tag, fields => .ok (tag, fields.reverse)
  | (key, value) :: members, tag, fields => do
    let name ← keyText key
    if name = MessageTag.member then
      match tag with
      | some _ => wrongShape (.duplicateField name)
      | none => do
        let tag ← messageTag ⟨depth, value⟩
        messageMembers depth members (some tag) fields
    else
      let value ← datum depth value
      messageMembers depth members tag ((.text name, value) :: fields)

def message (node : Node) : Except ReadFault Message :=
  match node.doc with
  | .object members stop => do
    let depth ← deeper node.depth
    let (tag, fields) ← messageMembers depth members none []
    match stop, tag with
    | some fault, _ => .error fault
    | none, none => wrongShape (.missingField MessageTag.member)
    | none, some tag => Message.ofFields tag (.map fields)
  | .list items stop => do
    let depth ← deeper node.depth
    match items, stop with
    | [], some fault => .error fault
    | [], none => wrongShape (.missingField MessageTag.member)
    | first :: rest, stop => do
      let tag ← messageTag ⟨depth, first⟩
      let fields ← datumItems depth rest
      match stop with
      | some fault => .error fault
      | none => Message.ofFields tag (.list fields)
  | doc => wrongType doc Message.expected

end Json.Node

end TraceJournal
