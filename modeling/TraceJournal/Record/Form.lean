import TraceJournal.Record.Basic
import TraceJournal.Shape.Source
import TraceJournal.Value

/-!
# Records as data

The form in which records are read from and written to documents. On the wire they have another
one.
-/
namespace TraceJournal

namespace TimeTag

def toValue (t : TimeTag) : Value :=
  .object [("base", .nat t.base.toNat), ("context", .nat t.context.toNat),
    ("seconds", .nat t.seconds.toNat), ("useconds", .nat t.useconds.toNat)]

def fields {ν : Type} [Source ν] : Fields ν [UInt16, UInt8, UInt32, UInt32] :=
  .cons "base" .required Source.uint16 <|
  .cons "context" .required Source.uint8 <|
  .cons "seconds" .required Source.uint32 <|
  .cons "useconds" .required Source.uint32 .nil

def read {ν : Type} [Source ν] (source : ν) : Except ReadFault TimeTag := do
  let (base, context, seconds, useconds, ()) ← fields.read "struct TraceTime" false source
  return ⟨base, context, seconds, useconds⟩

end TimeTag

def Kind.read {ν : Type} [Source ν] (source : ν) : Except ReadFault Kind :=
  Source.oneOf Kind.all Kind.name source

namespace Record

def members (r : Record) : List (String × Value) :=
  [("id", .nat r.id.toNat), ("time", r.time.toValue), ("kind", .text r.kind.name),
    ("payload", .list (r.payload.map fun b => .nat b.toNat))]

def toValue (r : Record) : Value := .object r.members

def inputs {ν : Type} [Source ν] : Fields ν [UInt32, TimeTag, Kind, List UInt8] :=
  .cons "id" .required Source.uint32 <|
  .cons "time" .required TimeTag.read <|
  .cons "kind" .required Kind.read <|
  .cons "payload" (.defaulted []) (Source.list Source.uint8) .nil

def read {ν : Type} [Source ν] (source : ν) : Except ReadFault Record := do
  let (id, time, kind, payload, ()) ← inputs.read "struct TraceRecord" false source
  return ⟨id, time, kind, payload⟩

end Record

end TraceJournal
