import TraceJournal.Message.Form

/-!
# Scripts

A script is a sequence of messages in the order of their delivery, with the version of its
format and, optionally, data about where it comes from.
-/
namespace TraceJournal

def scriptVersion : UInt16 := 1

structure Script where
  version : UInt16
  messages : List Message
  metadata : Option Value

namespace Script

def ofMessages (messages : List Message) : Script := ⟨scriptVersion, messages, none⟩

def records (s : Script) : List Record := s.messages.filterMap Message.record?

/-- Equality of scripts; floating point numbers in the metadata are compared as numbers. -/
def same (a b : Script) : Bool :=
  a.version == b.version && a.messages == b.messages && a.metadata == b.metadata

def toValue (s : Script) : Value :=
  .object [("version", .nat s.version.toNat),
    ("messages", .list (s.messages.map Message.toValue)), ("meta", s.metadata.getD .null)]

/-- The fields of a script, given how messages and metadata are read. -/
def fields {ν : Type} [Source ν] (message : ν → Except ReadFault Message)
    (value : ν → Except ReadFault Value) : Fields ν [UInt16, List Message, Option Value] :=
  .cons "version" .required Source.uint16 <|
  .cons "messages" .required (Source.list message) <|
  .cons "meta" (.nullable none) (Source.nullable value) .nil

def read {ν : Type} [Source ν] (message : ν → Except ReadFault Message)
    (value : ν → Except ReadFault Value) (source : ν) : Except ReadFault Script := do
  let (version, messages, metadata, ()) ←
    (fields message value).read "struct Script" false source
  return ⟨version, messages, metadata⟩

end Script

end TraceJournal
