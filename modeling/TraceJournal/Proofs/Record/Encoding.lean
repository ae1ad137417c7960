import TraceJournal.Record.Encoder

/-!
# What an encoder returns

The scratch buffer never shows: the bytes of an encodable record are its wire form, whatever was
encoded before, and a record that cannot be encoded leaves the buffer as it was.
-/
namespace TraceJournal

namespace Encoder

theorem put_append (done tail bytes : List UInt8) :
    put (done ++ tail, done.length) bytes =
      (done ++ bytes ++ tail.drop bytes.length, (done ++ bytes).length) := by
  simp only [put, List.take_left, List.drop_append, List.length_append]
  rw [List.drop_of_length_le (Nat.le_add_right _ _), Nat.add_sub_cancel_left]
  simp

theorem foldl_put (done tail : List UInt8) (fields : List (List UInt8)) :
    fields.foldl put (done ++ tail, done.length) =
      (done ++ fields.flatten ++ tail.drop fields.flatten.length,
        (done ++ fields.flatten).length) := by
  induction fields generalizing done tail with
  | nil => simp
  | cons field fields ih =>
    rw [List.foldl_cons, put_append, ih]
    simp [List.drop_drop]

/-- An encodable record covers the front of the buffer with its wire form. -/
theorem encode_of_encodable {r : Record} (h : r.Encodable) (e : Encoder) :
    encode r e = (.ok r.wire, ⟨r.wire ++ e.buffer.drop r.size⟩) := by
  have hp := foldl_put [] e.buffer r.fields
  simp only [List.nil_append, List.length_nil] at hp
  rw [encode, if_pos (show r.payload.length ≤ maxPayload from h), hp]
  simp only [Record.wire, ← Record.length_wire, List.take_left]

theorem encode_of_not_encodable {r : Record} (h : ¬ r.Encodable) (e : Encoder) :
    encode r e = (.error (.payloadTooLarge r.payload.length), e) := by
  rw [encode, if_neg (show ¬ r.payload.length ≤ maxPayload from h)]

end Encoder

namespace Record

theorem size_le_of_encodable {r : Record} (h : r.Encodable) : r.size ≤ maxRecordSize :=
  Nat.add_le_add_left h headerSize

theorem wire_ne_nil (r : Record) : r.wire ≠ [] := by
  intro h
  have hl := r.length_wire
  rw [h, List.length_nil, size, headerSize] at hl
  omega

end Record

end TraceJournal
