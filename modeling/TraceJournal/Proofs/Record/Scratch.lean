import TraceJournal.Proofs.Record.Ranges

/-!
# Writing into the scratch buffer

Nothing that an encoder returns comes from a record that it encoded before: every byte of a span has been
written for its record. Every write lies within the buffer, whose size never changes, and the length of a
payload is put into a word of sixteen bits only if it fits there.
-/
namespace TraceJournal

theorem Record.headerSize_le_length_wire (r : Record) : headerSize ≤ r.wire.length := by
  rw [r.length_wire]
  exact Nat.le_add_right _ _

theorem Header.ofRanges?_wire {r : Record} (h : r.Encodable) :
    ofRanges? r.wire = some ⟨r.id, r.time, r.kind.tag, r.payload.length⟩ := by
  rcases ofRanges?_eq r.headerSize_le_length_wire with ⟨header, hranges, htake⟩
  rw [r.wire_eq, Record.take?_heading h] at htake
  cases htake
  exact hranges

theorem range?_wire_payload (r : Record) : range? r.wire headerSize r.wire.length = some r.payload := by
  rw [range?, if_pos ⟨r.headerSize_le_length_wire, Nat.le_refl _⟩, ← List.length_drop,
    List.take_length, r.wire_eq, ← r.length_heading, List.drop_left]

namespace Encoder

variable {buffer bytes : List UInt8} {fields : List (List UInt8)} {pos n : Nat} {r : Record}
  {e : Encoder}

/-- The length of a payload as a word of sixteen bits, if a record may have it. -/
def lengthWord? (n : Nat) : Option UInt16 :=
  (if n < UInt16.size then some (UInt16.ofNat n) else none).filter fun word => word.toNat ≤ maxPayload

/-- Overwrites a range of the buffer, as `put` does, if all of it lies within the buffer. -/
def put? (state : List UInt8 × Nat) (bytes : List UInt8) : Option (List UInt8 × Nat) :=
  if state.2 + bytes.length ≤ state.1.length then some (put state bytes) else none

/-- Encodes a record with its length in a word of sixteen bits; `none` if a range of the buffer is
written or returned that does not lie within it. -/
def encodeChecked? (r : Record) (e : Encoder) : Option (Except LogError (List UInt8) × Encoder) :=
  match lengthWord? r.payload.length with
  | none => some (.error (.payloadTooLarge r.payload.length), e)
  | some word => do
    let fields := r.fields.take 6 ++ [BigEndian.digits 2 word.toNat, r.payload]
    let (buffer, pos) ← fields.foldlM put? (e.buffer, 0)
    let span ← range? buffer 0 pos
    return (.ok span, ⟨buffer⟩)

/-- An encoder that has been used for these records, in order. -/
def reused (earlier : List Record) : Encoder := earlier.foldl (fun e r => (encode r e).2) fresh

theorem lengthWord?_of_le (h : n ≤ maxPayload) : ∃ word, lengthWord? n = some word ∧ word.toNat = n := by
  have hsize : n < UInt16.size := Nat.lt_of_le_of_lt h (by decide)
  have hword : (UInt16.ofNat n).toNat = n := UInt16.toNat_ofNat_of_lt' hsize
  refine ⟨UInt16.ofNat n, ?_, hword⟩
  rw [lengthWord?, if_pos hsize, Option.filter_some, hword, if_pos (decide_eq_true h)]

theorem lengthWord?_of_lt (h : maxPayload < n) : lengthWord? n = none := by
  rw [lengthWord?]
  by_cases hsize : n < UInt16.size
  · have hword : (UInt16.ofNat n).toNat = n := UInt16.toNat_ofNat_of_lt' hsize
    rw [if_pos hsize, Option.filter_some, hword, if_neg (by simpa using h)]
  · rw [if_neg hsize]
    rfl

theorem length_put (h : pos + bytes.length ≤ buffer.length) :
    (put (buffer, pos) bytes).1.length = buffer.length := by
  simp only [put, List.length_append, List.length_take, List.length_drop]
  omega

theorem foldlM_put? (h : pos + fields.flatten.length ≤ buffer.length) :
    fields.foldlM put? (buffer, pos) = some (fields.foldl put (buffer, pos)) := by
  induction fields generalizing buffer pos with
  | nil => rfl
  | cons field fields ih =>
    rw [List.flatten_cons, List.length_append] at h
    have hfield : pos + field.length ≤ buffer.length := by omega
    have hput : put? (buffer, pos) field = some (put (buffer, pos) field) := if_pos hfield
    have hrest : pos + field.length + fields.flatten.length ≤ (put (buffer, pos) field).1.length := by
      rw [length_put hfield]
      omega
    rw [List.foldlM_cons, hput, List.foldl_cons]
    exact ih hrest

/-- The checks of an encoder with a whole buffer never fail. -/
theorem encodeChecked?_eq (he : e.buffer.length = maxRecordSize) (r : Record) :
    encodeChecked? r e = some (encode r e) := by
  rw [encodeChecked?]
  by_cases hr : r.payload.length ≤ maxPayload
  · rcases lengthWord?_of_le hr with ⟨word, hword, hvalue⟩
    have hfields : r.fields.take 6 ++ [BigEndian.digits 2 word.toNat, r.payload] = r.fields := by
      rw [hvalue]
      rfl
    -- The fields are written one behind the other from the front and take the size of the record.
    have hroom : 0 + r.fields.flatten.length ≤ e.buffer.length := by
      change 0 + r.wire.length ≤ e.buffer.length
      rw [he, Nat.zero_add, r.length_wire]
      exact Record.size_le_of_encodable hr
    have hput := foldl_put [] e.buffer r.fields
    simp only [List.nil_append, List.length_nil] at hput
    have hspan : range? (r.fields.flatten ++ e.buffer.drop r.fields.flatten.length) 0
        r.fields.flatten.length = some r.fields.flatten := by
      rw [range?, if_pos ⟨Nat.zero_le _, by simp⟩, List.drop_zero, Nat.sub_zero, List.take_left]
    rw [encode, if_pos hr]
    simp only [hword, hfields, foldlM_put? hroom, hput, Option.bind_eq_bind, Option.bind_some, hspan,
      List.take_left]
    rfl
  · rw [lengthWord?_of_lt (Nat.lt_of_not_le hr), encode, if_neg hr]

theorem length_buffer_encode (he : e.buffer.length = maxRecordSize) (r : Record) :
    (encode r e).2.buffer.length = maxRecordSize := by
  by_cases hr : r.Encodable
  · have hsize := Record.size_le_of_encodable hr
    rw [encode_of_encodable hr]
    simp only [List.length_append, List.length_drop, r.length_wire, he]
    omega
  · rw [encode_of_not_encodable hr]
    exact he

theorem length_buffer_reused (earlier : List Record) : (reused earlier).buffer.length = maxRecordSize := by
  induction earlier using List.reverseRecOn with
  | nil => exact List.length_replicate
  | append_singleton earlier r ih =>
    rw [reused, List.foldl_append]
    exact length_buffer_encode ih r

/-- Whatever was encoded or refused before, an encoder returns what a fresh one returns, and every write
lies within its buffer. A record that the wire can carry gives a span of its size with all fields in
their ranges; one that it cannot carry is refused with its length, and no byte of the buffer changes. -/
theorem encode_reused (earlier : List Record) (r : Record) :
    (encode r (reused earlier)).1 = (encode r fresh).1 ∧
    (reused earlier).buffer.length = maxRecordSize ∧
    encodeChecked? r (reused earlier) = some (encode r (reused earlier)) ∧
    (r.payload.length ≤ maxPayload → ∃ span, (encode r (reused earlier)).1 = .ok span ∧
      span.length = headerSize + r.payload.length ∧
      Header.ofRanges? span = some ⟨r.id, r.time, r.kind.tag, r.payload.length⟩ ∧
      range? span headerSize span.length = some r.payload) ∧
    (maxPayload < r.payload.length →
      encode r (reused earlier) = (.error (.payloadTooLarge r.payload.length), reused earlier)) := by
  have hlength := length_buffer_reused earlier
  refine ⟨?_, hlength, encodeChecked?_eq hlength r, fun hr => ?_, fun hr => ?_⟩
  · by_cases hr : r.Encodable
    · rw [encode_of_encodable hr, encode_of_encodable hr]
    · rw [encode_of_not_encodable hr, encode_of_not_encodable hr]
  · have hencode := congrArg Prod.fst (encode_of_encodable hr (reused earlier))
    exact ⟨r.wire, hencode, r.length_wire, Header.ofRanges?_wire hr, range?_wire_payload r⟩
  · exact encode_of_not_encodable (Nat.not_le.2 hr) _

def sized (length : Nat) : Record := ⟨3, default, .user, List.replicate length 0xFF⟩

/-- After the largest record and one that is refused, a short one shows nothing of them; a payload whose
length would be one in sixteen bits is refused. -/
theorem encode_reused_sized :
    (encode (sized 1) (reused [sized 256, sized 257])).1 = (encode (sized 1) fresh).1 ∧
      encode (sized 65537) (reused [sized 256, sized 257]) =
        (.error (.payloadTooLarge 65537), reused [sized 256, sized 257]) := by
  have hlength : (sized 65537).payload.length = 65537 := List.length_replicate
  have hlong : maxPayload < (sized 65537).payload.length := by
    rw [hlength]
    decide
  rcases encode_reused [sized 256, sized 257] (sized 1) with ⟨hsame, -⟩
  rcases encode_reused [sized 256, sized 257] (sized 65537) with ⟨-, -, -, -, hrefused⟩
  have hresult := hrefused hlong
  rw [hlength] at hresult
  exact ⟨hsame, hresult⟩

end Encoder

end TraceJournal
