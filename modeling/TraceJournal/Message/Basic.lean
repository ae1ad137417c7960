import TraceJournal.Log.Logger

/-!
# Messages

What reaches a logger from outside: trace events, and the two commands with their opcode and
sequence number. A command is answered by a status that repeats both.
-/
namespace TraceJournal

def enableTraceOpcode : UInt32 := 0

def dumpTraceOpcode : UInt32 := 1

inductive Message where
  | trace (record : Record)
  | enableTrace (opcode seq : UInt32) (enable : Bool)
  | dumpTrace (opcode seq : UInt32)
deriving DecidableEq, Repr, Inhabited

def Message.record? : Message → Option Record
  | trace record => some record
  | _ => none

structure CommandStatus where
  opcode : UInt32
  seq : UInt32
  response : Response
deriving DecidableEq, Repr, Inhabited

inductive Handled where
  | trace (result : Except LogError Disposition)
  | command (status : CommandStatus)

end TraceJournal
