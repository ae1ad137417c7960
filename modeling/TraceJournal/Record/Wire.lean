import TraceJournal.Bytes
import TraceJournal.Record.Basic

/-!
# Records on the wire

A record is a header of eighteen bytes followed by its payload, all integers big-endian:
identifier (4), time base (2), time context (1), seconds (4), microseconds (4), kind tag (1),
payload length (2). A log is the plain concatenation of records; the length in the header is
the only framing.
-/
namespace TraceJournal

def headerSize : Nat := 18

def maxPayload : Nat := 256

def maxRecordSize : Nat := headerSize + maxPayload

namespace Record

def size (r : Record) : Nat := headerSize + r.payload.length

def fields (r : Record) : List (List UInt8) :=
  [BigEndian.digits 4 r.id.toNat, BigEndian.digits 2 r.time.base.toNat, [r.time.context],
    BigEndian.digits 4 r.time.seconds.toNat, BigEndian.digits 4 r.time.useconds.toNat,
    [r.kind.tag], BigEndian.digits 2 r.payload.length, r.payload]

def wire (r : Record) : List UInt8 := r.fields.flatten

theorem length_wire (r : Record) : r.wire.length = r.size := by
  simp [wire, fields, size, headerSize]
  omega

/-- A record that the wire format can carry. -/
def Encodable (r : Record) : Prop := r.payload.length ≤ maxPayload

instance (r : Record) : Decidable r.Encodable := inferInstanceAs (Decidable (_ ≤ _))

end Record

/-- Why a stream does not continue with a record at `offset`. -/
inductive DecodeError where
  | truncated (offset needed available : Nat)
  | unknownKind (offset : Nat) (tag : UInt8)
  | payloadTooLarge (offset length : Nat)
deriving DecidableEq, Repr

namespace DecodeError

def message : DecodeError → String
  | truncated offset needed available =>
    s!"truncated record at offset {offset}: need {needed} bytes, have {available}"
  | unknownKind offset tag => s!"unknown trace type tag {tag} at offset {offset}"
  | payloadTooLarge offset length =>
    s!"payload length {length} exceeds max {maxPayload} at offset {offset}"

end DecodeError

/-- The fixed part of a record, as read. -/
structure Header where
  id : UInt32
  time : TimeTag
  tag : UInt8
  length : Nat

/-- Reads a header from the front; `none` only if fewer than `headerSize` bytes are left. -/
def Header.take? (bytes : List UInt8) : Option (Header × List UInt8) := do
  let (id, bytes) ← BigEndian.read? 4 bytes
  let (base, bytes) ← BigEndian.read? 2 bytes
  let (context, bytes) ← BigEndian.read? 1 bytes
  let (seconds, bytes) ← BigEndian.read? 4 bytes
  let (useconds, bytes) ← BigEndian.read? 4 bytes
  let (tag, bytes) ← BigEndian.read? 1 bytes
  let (length, bytes) ← BigEndian.read? 2 bytes
  return (⟨.ofNat id, ⟨.ofNat base, .ofNat context, .ofNat seconds, .ofNat useconds⟩,
    .ofNat tag, length⟩, bytes)

/-- Reads the record at the front of `bytes`, which stand at `offset` in their stream, and
returns it with what follows. The tag is checked before the length, and both before the payload
has to be there. -/
def Record.decodeAt (offset : Nat) (bytes : List UInt8) :
    Except DecodeError (Record × List UInt8) :=
  match Header.take? bytes with
  | none => .error (.truncated offset headerSize bytes.length)
  | some (header, body) =>
    match Kind.ofTag? header.tag with
    | none => .error (.unknownKind offset header.tag)
    | some kind =>
      if maxPayload < header.length then .error (.payloadTooLarge offset header.length)
      else
        match TraceJournal.take? header.length body with
        | none => .error (.truncated offset (headerSize + header.length) bytes.length)
        | some (payload, rest) => .ok (⟨header.id, header.time, kind, payload⟩, rest)

/-- The record at the front of `bytes` and the number of bytes that it takes. -/
def Record.decode (bytes : List UInt8) : Except DecodeError (Record × Nat) :=
  (Record.decodeAt 0 bytes).map fun (r, _) => (r, r.size)

theorem BigEndian.length_of_read? {width n : Nat} {bytes rest : List UInt8}
    (h : BigEndian.read? width bytes = some (n, rest)) : bytes.length = width + rest.length := by
  simp only [BigEndian.read?, Option.map_eq_some_iff, Prod.mk.injEq, Prod.exists] at h
  obtain ⟨head, tail, ht, -, rfl⟩ := h
  obtain ⟨rfl, rfl⟩ := take?_eq_some_iff.1 ht
  simp

theorem Header.length_of_take? {bytes rest : List UInt8} {header : Header}
    (h : Header.take? bytes = some (header, rest)) :
    bytes.length = headerSize + rest.length := by
  simp only [Header.take?, bind, Option.bind_eq_some_iff, Prod.exists, pure, Option.some.injEq,
    Prod.mk.injEq] at h
  obtain ⟨_, _, h1, _, _, h2, _, _, h3, _, _, h4, _, _, h5, _, _, h6, _, _, h7, -, rfl⟩ := h
  have := BigEndian.length_of_read? h1
  have := BigEndian.length_of_read? h2
  have := BigEndian.length_of_read? h3
  have := BigEndian.length_of_read? h4
  have := BigEndian.length_of_read? h5
  have := BigEndian.length_of_read? h6
  have := BigEndian.length_of_read? h7
  simp only [headerSize]
  omega

theorem Record.length_of_decodeAt {offset : Nat} {bytes rest : List UInt8} {r : Record}
    (h : Record.decodeAt offset bytes = .ok (r, rest)) : bytes.length = r.size + rest.length := by
  unfold Record.decodeAt at h
  split at h
  · cases h
  · next header body hh =>
    have hb := Header.length_of_take? hh
    split at h
    · cases h
    · split at h
      · cases h
      · split at h
        · cases h
        · next payload tail ht =>
          cases h
          obtain ⟨rfl, hl⟩ := take?_eq_some_iff.1 ht
          simp only [Record.size, List.length_append] at *
          omega

/-- A position in a stream of records. After a failure it stays where the bad record starts. -/
structure RecordReader where
  rest : List UInt8
  offset : Nat
  done : Bool

namespace RecordReader

def start (bytes : List UInt8) : RecordReader := ⟨bytes, 0, false⟩

/-- The next record, or the one failure that ends the stream, and the position after it. -/
def next? (reader : RecordReader) : Option (Except DecodeError Record × RecordReader) :=
  if reader.done || reader.rest.isEmpty then none
  else
    match Record.decodeAt reader.offset reader.rest with
    | .ok (r, rest) => some (.ok r, ⟨rest, reader.offset + r.size, false⟩)
    | .error e => some (.error e, { reader with done := true })

def remaining (reader : RecordReader) : Nat :=
  if reader.done then 0 else reader.rest.length + 1

theorem remaining_lt_of_next? {reader after : RecordReader} {item : Except DecodeError Record}
    (h : reader.next? = some (item, after)) : after.remaining < reader.remaining := by
  unfold next? at h
  split at h
  · cases h
  · next hd =>
    have hdone : reader.done = false := by simp_all
    split at h
    · next r rest hr =>
      cases h
      have := Record.length_of_decodeAt hr
      simp only [remaining, hdone, Record.size, headerSize] at *
      simp
      omega
    · cases h
      simp [remaining, hdone]

/-- Every item that the reader still yields, each with the position after it. -/
def items (reader : RecordReader) : List (Except DecodeError Record × RecordReader) :=
  match h : reader.next? with
  | none => []
  | some (item, after) =>
    have := remaining_lt_of_next? h
    (item, after) :: after.items
termination_by reader.remaining

end RecordReader

/-- The records of a whole stream, or the failure of the first one that cannot be read. -/
def Record.decodeAll (bytes : List UInt8) : Except DecodeError (List Record) :=
  (RecordReader.start bytes).items.mapM (·.1)

end TraceJournal
