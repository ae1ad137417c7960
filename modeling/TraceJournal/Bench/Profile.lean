import TraceJournal.Failure
import TraceJournal.Storage.FileSystem
import TraceJournal.Text.Quoted
import TraceJournal.Toml.Document

/-!
# Profiles of a benchmark

What a benchmark is to do, as a document says it. Keys that are not known are passed over.
-/
namespace TraceJournal

namespace Datum

def number : Datum → Except ReadFault Float
  | .float x => .ok x
  | int n => .ok (Float.ofInt n)
  | d => d.wrongType "a number"

end Datum

namespace Bench

/-- The traffic of a round, the budget of the log, and the number of rounds. -/
structure Profile where
  events : UInt32
  maxPayload : Nat
  maxSize : UInt32
  commandRate : Float
  repeats : UInt32

namespace Profile

def fields : Fields Datum [UInt32, Nat, UInt32, Float, UInt32] :=
  .cons "events" .required Source.uint32 <|
  .cons "max_payload" .required Source.uint64 <|
  .cons "max_size" .required Source.uint32 <|
  .cons "command_rate" (.defaulted 0) Datum.number <|
  .cons "repeats" .required Source.uint32 .nil

def read (source : Datum) : Except ReadFault Profile := do
  let (events, maxPayload, maxSize, commandRate, repeats, ()) ←
    fields.read "a profile" false source
  return ⟨events, maxPayload, maxSize, commandRate, repeats⟩

def load (path : String) (fs : FileSystem) : Except Failure Profile := do
  let text ← during .io s!"read profile {Text.quoted path}" (fs.readText path)
  during .toml "parse profile toml" (Toml.read read text)

end Profile

end Bench

end TraceJournal
