import TraceJournal.Proofs.Record.Exactness

/-!
# What can be read of a stream

Any bytes start with records, none perhaps, and then they end or go on with what is no record. Reading
yields these records and the one failure after them, and no longer beginning of the bytes is made of
records.
-/
namespace TraceJournal

/-- Where the record starts that cannot be read. -/
def DecodeError.offset : DecodeError → Nat
  | truncated offset _ _ | unknownKind offset _ | payloadTooLarge offset _ => offset

theorem Record.offset_of_decodeAt_error {offset : Nat} {bytes : List UInt8} {e : DecodeError}
    (h : decodeAt offset bytes = .error e) : e.offset = offset := by
  unfold decodeAt at h
  split at h
  · cases h
    rfl
  · split at h
    · cases h
      rfl
    · split at h
      · cases h
        rfl
      · split at h
        · cases h
          rfl
        · cases h

theorem RecordReader.next?_of_error {offset : Nat} {bytes : List UInt8} {e : DecodeError}
    (hne : bytes ≠ []) (h : Record.decodeAt offset bytes = .error e) :
    next? ⟨bytes, offset, false⟩ = some (.error e, ⟨bytes, offset, true⟩) := by
  simp [next?, hne, h]

/-- How bytes at `offset` of a stream split: into records that the wire can carry, and then nothing or
bytes that cannot be read as a record. -/
inductive Splits : Nat → List UInt8 → List Record → Option DecodeError → Prop
  | ended (offset : Nat) : Splits offset [] [] none
  | broken {offset : Nat} {bytes : List UInt8} {e : DecodeError} (hne : bytes ≠ [])
      (h : Record.decodeAt offset bytes = .error e) : Splits offset bytes [] (some e)
  | record {offset : Nat} {r : Record} {rest : List UInt8} {rs : List Record}
      {failure : Option DecodeError} (hr : r.Encodable)
      (h : Splits (offset + r.size) rest rs failure) : Splits offset (r.wire ++ rest) (r :: rs) failure

theorem exists_splits (offset : Nat) (bytes : List UInt8) :
    ∃ rs failure, Splits offset bytes rs failure := by
  induction hn : bytes.length using Nat.strongRecOn generalizing offset bytes with
  | ind n ih =>
    by_cases hne : bytes = []
    · exact ⟨[], none, hne ▸ .ended offset⟩
    cases hd : Record.decodeAt offset bytes with
    | error e => exact ⟨[], some e, .broken hne hd⟩
    | ok found =>
      rcases found with ⟨r, rest⟩
      rcases Record.decodeAt_eq_ok_iff.1 hd with ⟨hr, rfl⟩
      have hshort : rest.length < n := by
        rw [← hn, List.length_append, Record.length_wire, Record.size, headerSize]
        omega
      rcases ih rest.length hshort (offset + r.size) rest rfl with ⟨rs, failure, h⟩
      exact ⟨r :: rs, failure, .record hr h⟩

namespace Splits

variable {offset : Nat} {bytes : List UInt8} {rs : List Record} {failure : Option DecodeError}

theorem encodable (h : Splits offset bytes rs failure) : ∀ r ∈ rs, r.Encodable := by
  induction h with
  | ended | broken => simp
  | record hr _ ih => exact List.forall_mem_cons.2 ⟨hr, ih⟩

/-- The reader yields the records, and the failure if there is one. -/
theorem items_eq (h : Splits offset bytes rs failure) :
    (RecordReader.items ⟨bytes, offset, false⟩).map (·.1) =
      rs.map .ok ++ failure.toList.map .error := by
  induction h with
  | ended offset => rw [RecordReader.items_nil]; rfl
  | @broken offset bytes e hne h =>
    rw [RecordReader.items_of_next?_some (RecordReader.next?_of_error hne h),
      RecordReader.items_done]
    rfl
  | record hr _ ih =>
    rw [RecordReader.items_wire_append hr, List.map_cons, ih]
    rfl

theorem rest (h : Splits offset bytes rs failure) :
    ∃ rest, bytes = rs.flatMap Record.wire ++ rest ∧
      (failure = none ∧ rest = [] ∨ ∃ e, failure = some e ∧ rest ≠ [] ∧
        Record.decodeAt (offset + (rs.flatMap Record.wire).length) rest = .error e) := by
  induction h with
  | ended => exact ⟨[], rfl, .inl ⟨rfl, rfl⟩⟩
  | @broken offset bytes e hne h => exact ⟨bytes, rfl, .inr ⟨e, rfl, hne, h⟩⟩
  | @record offset r rest rs failure hr _ ih =>
    rcases ih with ⟨behind, rfl, hend⟩
    refine ⟨behind, by rw [List.flatMap_cons, List.append_assoc], ?_⟩
    rwa [List.flatMap_cons, List.length_append, Record.length_wire, ← Nat.add_assoc]

theorem isPrefix (h : Splits offset bytes rs failure) {ss : List Record} {more : List UInt8}
    (hss : ∀ s ∈ ss, s.Encodable) (hbytes : bytes = ss.flatMap Record.wire ++ more) : ss <+: rs := by
  induction h generalizing ss with
  | ended =>
    cases ss with
    | nil => exact List.nil_prefix
    | cons s ss => simp [s.wire_ne_nil] at hbytes
  | @broken offset bytes e hne h =>
    cases ss with
    | nil => exact List.nil_prefix
    | cons s ss =>
      rw [hbytes, List.flatMap_cons, List.append_assoc,
        Record.decodeAt_wire_append (hss s List.mem_cons_self)] at h
      cases h
  | @record offset r rest rs failure hr _ ih =>
    cases ss with
    | nil => exact List.nil_prefix
    | cons s ss =>
      rcases List.forall_mem_cons.1 hss with ⟨hs, htail⟩
      rw [List.flatMap_cons, List.append_assoc] at hbytes
      -- Both start with the record that is read there.
      have hread := Record.decodeAt_wire_append hr 0 rest
      rw [hbytes, Record.decodeAt_wire_append hs] at hread
      cases hread
      apply (List.prefix_cons_inj _).2
      exact ih htail rfl

end Splits

end TraceJournal
