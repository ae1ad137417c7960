import TraceJournal.Message.Basic

/-!
# Draining messages

Handing messages to a logger one by one, in order, and counting what became of them.
-/
namespace TraceJournal

/-- Counts over a sequence of messages, and the answers to its commands in order. The program keeps the
counts in 64-bit words; natural numbers stand for them here, which do not overflow. -/
structure Summary where
  written : Nat
  bytesWritten : Nat
  disabled : Nat
  unconfigured : Nat
  unavailable : Nat
  capReached : Nat
  errors : Nat
  commands : List CommandStatus
deriving DecidableEq, Repr

namespace Summary

def empty : Summary := ⟨0, 0, 0, 0, 0, 0, 0, []⟩

def add (s : Summary) : Handled → Summary
  | .trace (.ok (.written bytes)) =>
    { s with written := s.written + 1, bytesWritten := s.bytesWritten + bytes }
  | .trace (.ok .disabled) => { s with disabled := s.disabled + 1 }
  | .trace (.ok .unconfigured) => { s with unconfigured := s.unconfigured + 1 }
  | .trace (.ok .unavailable) => { s with unavailable := s.unavailable + 1 }
  | .trace (.ok .capReached) => { s with capReached := s.capReached + 1 }
  | .trace (.error _) => { s with errors := s.errors + 1 }
  | .command status => { s with commands := s.commands ++ [status] }

end Summary

namespace Logger

variable {σ η ξ : Type} [Storage σ η] [Exporter ξ σ]

def dispatch (message : Message) (l : Logger σ η ξ) : Handled × Logger σ η ξ :=
  match message with
  | .trace record =>
    let (result, l) := l.log record
    (.trace result, l)
  | .enableTrace opcode seq enable =>
    let (response, l) := l.enableTrace enable
    (.command ⟨opcode, seq, response⟩, l)
  | .dumpTrace opcode seq =>
    let (response, l) := l.dumpTrace
    (.command ⟨opcode, seq, response⟩, l)

/-- Handles messages in order and counts what became of them. -/
def drain (messages : List Message) (l : Logger σ η ξ) : Summary × Logger σ η ξ :=
  messages.foldl
    (fun (summary, l) message =>
      let (handled, l) := l.dispatch message
      (summary.add handled, l))
    (Summary.empty, l)

end Logger

end TraceJournal
