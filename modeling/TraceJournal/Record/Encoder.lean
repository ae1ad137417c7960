import TraceJournal.Log.Error

/-!
# Encoding through a scratch buffer

An encoder owns one buffer, as large as the largest record, and writes every record into it
from the front. What it returns is the part that the record covers; bytes of earlier records
stay behind it in the buffer. A record that the wire cannot carry leaves the buffer alone.
-/
namespace TraceJournal

/-- The scratch buffer that all encodings share. -/
structure Encoder where
  buffer : List UInt8
deriving DecidableEq, Repr

namespace Encoder

def fresh : Encoder := ⟨List.replicate maxRecordSize 0⟩

/-- Overwrites the buffer from position `pos` on with `bytes`, and moves the position behind
them. -/
def put (state : List UInt8 × Nat) (bytes : List UInt8) : List UInt8 × Nat :=
  let (buffer, pos) := state
  (buffer.take pos ++ bytes ++ buffer.drop (pos + bytes.length), pos + bytes.length)

/-- Writes a record over the front of the buffer and returns the bytes that it covers. -/
def encode (r : Record) (e : Encoder) : Except LogError (List UInt8) × Encoder :=
  if r.payload.length ≤ maxPayload then
    let (buffer, pos) := r.fields.foldl put (e.buffer, 0)
    (.ok (buffer.take pos), ⟨buffer⟩)
  else (.error (.payloadTooLarge r.payload.length), e)

end Encoder

end TraceJournal
