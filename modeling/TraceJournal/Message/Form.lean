import TraceJournal.Message.Drain
import TraceJournal.Record.Form
import TraceJournal.Shape.Datum

/-!
# Messages as data

A message is an object whose member `msg` names what it is; the others are the fields of that.
The name may stand at any place among them, so the others are buffered until the object ends.
A message may also be a list: its name first, then its fields in declared order.
-/
namespace TraceJournal

namespace Response

def toValue (r : Response) : Value := .text r.name

def read {ν : Type} [Source ν] (source : ν) : Except ReadFault Response :=
  Source.oneOf Response.all Response.name source

end Response

namespace CommandStatus

def toValue (s : CommandStatus) : Value :=
  .object [("opcode", .nat s.opcode.toNat), ("seq", .nat s.seq.toNat),
    ("response", s.response.toValue)]

def fields {ν : Type} [Source ν] : Fields ν [UInt32, UInt32, Response] :=
  .cons "opcode" .required Source.uint32 <|
  .cons "seq" .required Source.uint32 <|
  .cons "response" .required Response.read .nil

def read {ν : Type} [Source ν] (source : ν) : Except ReadFault CommandStatus := do
  let (opcode, seq, response, ()) ← fields.read "struct CommandStatus" false source
  return ⟨opcode, seq, response⟩

end CommandStatus

namespace Summary

def toValue (s : Summary) : Value :=
  .object [("written", .nat s.written), ("bytes_written", .nat s.bytesWritten),
    ("disabled", .nat s.disabled), ("unconfigured", .nat s.unconfigured),
    ("unavailable", .nat s.unavailable), ("cap_reached", .nat s.capReached),
    ("errors", .nat s.errors), ("commands", .list (s.commands.map CommandStatus.toValue))]

def fields {ν : Type} [Source ν] :
    Fields ν [Nat, Nat, Nat, Nat, Nat, Nat, Nat, List CommandStatus] :=
  .cons "written" .required Source.uint64 <|
  .cons "bytes_written" .required Source.uint64 <|
  .cons "disabled" .required Source.uint64 <|
  .cons "unconfigured" .required Source.uint64 <|
  .cons "unavailable" .required Source.uint64 <|
  .cons "cap_reached" .required Source.uint64 <|
  .cons "errors" .required Source.uint64 <|
  .cons "commands" .required (Source.list CommandStatus.read) .nil

def read {ν : Type} [Source ν] (source : ν) : Except ReadFault Summary := do
  let (written, bytesWritten, disabled, unconfigured, unavailable, capReached, errors,
    commands, ()) ← fields.read "struct DrainSummary" false source
  return ⟨written, bytesWritten, disabled, unconfigured, unavailable, capReached, errors,
    commands⟩

end Summary

inductive MessageTag where
  | trace | enableTrace | dumpTrace
deriving DecidableEq, Repr

namespace MessageTag

def all : List MessageTag := [trace, enableTrace, dumpTrace]

def name : MessageTag → String
  | trace => "trace"
  | enableTrace => "enable_trace"
  | dumpTrace => "dump_trace_dp"

def member : String := "msg"

end MessageTag

namespace Message

def toValue : Message → Value
  | trace record => .object ((MessageTag.member, .text MessageTag.trace.name) :: record.members)
  | enableTrace opcode seq enable =>
    .object [(MessageTag.member, .text MessageTag.enableTrace.name),
      ("opcode", .nat opcode.toNat), ("seq", .nat seq.toNat), ("enable", .bool enable)]
  | dumpTrace opcode seq =>
    .object [(MessageTag.member, .text MessageTag.dumpTrace.name),
      ("opcode", .nat opcode.toNat), ("seq", .nat seq.toNat)]

def enableTraceFields {ν : Type} [Source ν] : Fields ν [UInt32, UInt32, Bool] :=
  .cons "opcode" .required Source.uint32 <|
  .cons "seq" .required Source.uint32 <|
  .cons "enable" .required Source.boolean .nil

def dumpTraceFields {ν : Type} [Source ν] : Fields ν [UInt32, UInt32] :=
  .cons "opcode" .required Source.uint32 <|
  .cons "seq" .required Source.uint32 .nil

/-- Reads the fields of a message whose tag is known. -/
def ofFields (tag : MessageTag) (fields : Datum) : Except ReadFault Message :=
  match tag with
  | .trace => trace <$> Record.read fields
  | .enableTrace => do
    let (opcode, seq, enable, ()) ←
      enableTraceFields.read "struct variant Inbound::EnableTrace" false fields
    return enableTrace opcode seq enable
  | .dumpTrace => do
    let (opcode, seq, ()) ←
      dumpTraceFields.read "struct variant Inbound::DumpTraceDp" false fields
    return dumpTrace opcode seq

/-- What a message should be, in an error. -/
def expected : String := "internally tagged enum Inbound"

end Message

end TraceJournal
