import TraceJournal.Proofs.Record.Splitting

/-!
# Reading by ranges of a stream

A record can be read where it stands, each field from its own range of the stream. From any offset
within the stream all these ranges lie within it, and what they give is what reading from the front
gives.
-/
namespace TraceJournal

/-- The bytes from `start` up to `stop`, if that range lies within them. -/
def range? (bytes : List UInt8) (start stop : Nat) : Option (List UInt8) :=
  if start ≤ stop ∧ stop ≤ bytes.length then some ((bytes.drop start).take (stop - start)) else none

namespace BigEndian

/-- The number in the `width` bytes from `start` on. -/
def at? (bytes : List UInt8) (start width : Nat) : Option Nat :=
  (range? bytes start (start + width)).map value

theorem exists_at? {bytes : List UInt8} {start width : Nat} (h : start + width ≤ bytes.length) :
    ∃ n, at? bytes start width = some n ∧
      read? width (bytes.drop start) = some (n, bytes.drop (start + width)) := by
  have hlength : ((bytes.drop start).take width).length = width := by
    rw [List.length_take, List.length_drop]
    omega
  have htake : take? width (bytes.drop start) =
      some ((bytes.drop start).take width, (bytes.drop start).drop width) :=
    take?_eq_some_iff.2 ⟨(List.take_append_drop _ _).symm, hlength⟩
  refine ⟨value ((bytes.drop start).take width), ?_, ?_⟩
  · rw [at?, range?, if_pos ⟨Nat.le_add_right _ _, h⟩, Nat.add_sub_cancel_left, Option.map_some]
  · rw [read?, htake, Option.map_some, List.drop_drop]

end BigEndian

/-- The header in front of the bytes, each field from its own range. -/
def Header.ofRanges? (bytes : List UInt8) : Option Header := do
  let id ← BigEndian.at? bytes 0 4
  let base ← BigEndian.at? bytes 4 2
  let context ← BigEndian.at? bytes 6 1
  let seconds ← BigEndian.at? bytes 7 4
  let useconds ← BigEndian.at? bytes 11 4
  let tag ← BigEndian.at? bytes 15 1
  let length ← BigEndian.at? bytes 16 2
  return ⟨.ofNat id, ⟨.ofNat base, .ofNat context, .ofNat seconds, .ofNat useconds⟩, .ofNat tag,
    length⟩

/-- Once a header is there, no field of it reaches beyond the bytes. -/
theorem Header.ofRanges?_eq {bytes : List UInt8} (h : headerSize ≤ bytes.length) :
    ∃ header, ofRanges? bytes = some header ∧
      take? bytes = some (header, bytes.drop headerSize) := by
  have field (start width : Nat) (hw : start + width ≤ headerSize) :=
    BigEndian.exists_at? (Nat.le_trans hw h)
  rcases field 0 4 (by decide) with ⟨id, hid, hid'⟩
  rcases field 4 2 (by decide) with ⟨base, hbase, hbase'⟩
  rcases field 6 1 (by decide) with ⟨context, hcontext, hcontext'⟩
  rcases field 7 4 (by decide) with ⟨seconds, hseconds, hseconds'⟩
  rcases field 11 4 (by decide) with ⟨useconds, huseconds, huseconds'⟩
  rcases field 15 1 (by decide) with ⟨tag, htag, htag'⟩
  rcases field 16 2 (by decide) with ⟨length, hlength, hlength'⟩
  rw [List.drop_zero] at hid'
  refine ⟨⟨.ofNat id, ⟨.ofNat base, .ofNat context, .ofNat seconds, .ofNat useconds⟩, .ofNat tag,
    length⟩, ?_, ?_⟩
  · simp [ofRanges?, hid, hbase, hcontext, hseconds, huseconds, htag, hlength]
  · simp [take?, hid', hbase', hcontext', hseconds', huseconds', htag', hlength', headerSize]

/-- Reads the record at `offset` where it stands in its stream, and says how many bytes it takes;
`none` if a range is asked for that does not lie within the bytes. -/
def Record.decodeRanges (stream : List UInt8) (offset : Nat) :
    Option (Except DecodeError (Record × Nat)) := do
  let rest ← range? stream offset stream.length
  if rest.length < headerSize then
    return .error (.truncated offset headerSize rest.length)
  let header ← Header.ofRanges? rest
  match Kind.ofTag? header.tag with
  | none => return .error (.unknownKind offset header.tag)
  | some kind =>
    if maxPayload < header.length then return .error (.payloadTooLarge offset header.length)
    let total := headerSize + header.length
    if rest.length < total then return .error (.truncated offset total rest.length)
    let payload ← range? rest headerSize total
    return .ok (⟨header.id, header.time, kind, payload⟩, total)

/-- From an offset within the stream every range is there. -/
theorem Record.decodeRanges_eq {stream : List UInt8} {offset : Nat} (h : offset ≤ stream.length) :
    decodeRanges stream offset =
      some ((decodeAt offset (stream.drop offset)).map fun (r, _) => (r, r.size)) := by
  have hrest : range? stream offset stream.length = some (stream.drop offset) := by
    rw [range?, if_pos ⟨h, Nat.le_refl _⟩, ← List.length_drop, List.take_length]
  rw [decodeRanges, hrest, Option.bind_eq_bind, Option.bind_some]
  generalize stream.drop offset = rest
  by_cases hshort : rest.length < headerSize
  · rw [if_pos hshort, decodeAt, take?_eq_none hshort]
    rfl
  rcases Header.ofRanges?_eq (Nat.le_of_not_lt hshort) with ⟨header, hranges, htake⟩
  rw [if_neg hshort, hranges, decodeAt, htake, Option.bind_eq_bind, Option.bind_some]
  cases hkind : Kind.ofTag? header.tag with
  | none => simp only [hkind]; rfl
  | some kind =>
    simp only [hkind]
    by_cases hlong : maxPayload < header.length
    · rw [if_pos hlong, if_pos hlong]
      rfl
    rw [if_neg hlong, if_neg hlong]
    by_cases hcut : rest.length < headerSize + header.length
    · have hnone : TraceJournal.take? header.length (rest.drop headerSize) = none := by
        rw [take?_eq_none_iff, List.length_drop]
        omega
      rw [if_pos hcut, hnone]
      rfl
    · have hbody : header.length ≤ (rest.drop headerSize).length := by
        rw [List.length_drop]
        omega
      have hsome : TraceJournal.take? header.length (rest.drop headerSize) =
          some ((rest.drop headerSize).take header.length,
            (rest.drop headerSize).drop header.length) :=
        take?_eq_some_iff.2 ⟨(List.take_append_drop _ _).symm, List.length_take_of_le hbody⟩
      have hrange : range? rest headerSize (headerSize + header.length) =
          some ((rest.drop headerSize).take header.length) := by
        rw [range?, if_pos ⟨Nat.le_add_right _ _, Nat.le_of_not_lt hcut⟩, Nat.add_sub_cancel_left]
      rw [if_neg hcut, hsome, hrange]
      simp [Except.map, size, List.length_take_of_le hbody]

end TraceJournal
