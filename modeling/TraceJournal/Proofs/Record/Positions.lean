import TraceJournal.Proofs.Record.Ranges

/-!
# Positions in a stream

A reader of any bytes is called again and again. Up to where it stands the bytes are what it has read;
it stops at the end, or with one failure at the offset where it stays, and then gives nothing more.
-/
namespace TraceJournal

namespace RecordReader

/-- What a call gives, and the position after it. A call that gives nothing leaves the position. -/
def call (reader : RecordReader) : Option (Except DecodeError Record) × RecordReader :=
  match reader.next? with
  | some (item, after) => (some item, after)
  | none => (none, reader)

/-- Whether further calls give nothing and change nothing. -/
def Exhausted (reader : RecordReader) : Prop := reader.call = (none, reader)

/-- Calls give these items one after the other, and lead to the second position. -/
inductive Yields (reader : RecordReader) : List (Except DecodeError Record) → RecordReader → Prop
  | nil : Yields reader [] reader
  | snoc {items : List (Except DecodeError Record)} {item : Except DecodeError Record}
      {here after : RecordReader} (h : Yields reader items here)
      (hcall : here.call = (some item, after)) : Yields reader (items ++ [item]) after

variable {reader here after : RecordReader} {bytes rest : List UInt8} {offset : Nat}
  {item : Except DecodeError Record} {items : List (Except DecodeError Record)} {r : Record}
  {rs : List Record} {e : DecodeError}

theorem call_eq_some_iff : here.call = (some item, after) ↔ here.next? = some (item, after) := by
  rw [call]
  cases here.next? with
  | none => simp
  | some found => simp [Prod.ext_iff]

theorem exhausted_iff : here.Exhausted ↔ here.next? = none := by
  rw [Exhausted, call]
  cases here.next? <;> simp

theorem of_call_eq_some (h : here.call = (some item, after)) :
    (∃ r rest, item = .ok r ∧ r.Encodable ∧ here.rest = r.wire ++ rest ∧
      after = ⟨rest, here.offset + r.size, false⟩) ∨
    ∃ e, item = .error e ∧ here.rest ≠ [] ∧ e.offset = here.offset ∧
      after = { here with done := true } := by
  rw [call_eq_some_iff, next?] at h
  split at h
  · cases h
  · next hmore =>
    split at h
    · next r rest hd =>
      cases h
      rcases Record.decodeAt_eq_ok_iff.1 hd with ⟨hr, hrest⟩
      exact .inl ⟨r, rest, rfl, hr, hrest, rfl⟩
    · next e hd =>
      cases h
      refine .inr ⟨e, rfl, ?_, Record.offset_of_decodeAt_error hd, rfl⟩
      intro hnil
      simp [hnil] at hmore

/-- A reader stands within its stream: what it has still to read is what lies behind its offset. -/
structure Within (bytes : List UInt8) (reader : RecordReader) : Prop where
  offset_le : reader.offset ≤ bytes.length
  rest_eq : reader.rest = bytes.drop reader.offset

theorem Within.call (h : here.Within bytes) (hcall : here.call = (some item, after)) :
    after.Within bytes := by
  rcases of_call_eq_some hcall with ⟨r, rest, -, -, hrest, rfl⟩ | ⟨e, -, -, -, rfl⟩
  · have hlength := congrArg List.length (h.rest_eq.symm.trans hrest)
    rw [List.length_drop, List.length_append, Record.length_wire] at hlength
    have hle := h.offset_le
    have hsize : r.wire.length = r.size := r.length_wire
    constructor
    · dsimp only
      omega
    · rw [← List.drop_drop, ← h.rest_eq, hrest, ← hsize, List.drop_left]
  · exact ⟨h.offset_le, h.rest_eq⟩

theorem Within.of_yields (h : (start bytes).Yields items here) : here.Within bytes := by
  induction h with
  | nil => exact ⟨Nat.zero_le _, rfl⟩
  | snoc _ hcall ih => exact ih.call hcall

/-- The bytes before the offset are the wire forms of the records that have been read, as long as no
call has failed. -/
theorem Yields.passed (h : (start bytes).Yields items here) (hitems : items = rs.map .ok) :
    (∀ r ∈ rs, r.Encodable) ∧ bytes.take here.offset = rs.flatMap Record.wire := by
  induction h generalizing rs with
  | nil =>
    cases List.map_eq_nil_iff.1 hitems.symm
    exact ⟨by simp, rfl⟩
  | @snoc items item here after hbefore hcall ih =>
    rcases List.append_eq_map_iff.1 hitems with ⟨past, last, rfl, hpast, hlast⟩
    rcases List.map_eq_singleton_iff.1 hlast with ⟨r, rfl, hok⟩
    rcases ih hpast.symm with ⟨hencodable, htake⟩
    rcases of_call_eq_some hcall with ⟨s, rest, hitem, hs, hrest, rfl⟩ | ⟨e, hitem, -⟩
    · rw [hitem] at hok
      cases hok
      have hwithin := Within.of_yields hbefore
      refine ⟨List.forall_mem_append.2 ⟨hencodable, by simpa using hs⟩, ?_⟩
      rw [← r.length_wire, List.take_add, htake, ← hwithin.rest_eq, hrest, List.take_left,
        List.flatMap_append, List.flatMap_singleton]
    · rw [hitem] at hok
      cases hok

theorem yields_records (hrs : ∀ r ∈ rs, r.Encodable) (rest : List UInt8) (offset : Nat) :
    Yields ⟨rs.flatMap Record.wire ++ rest, offset, false⟩ (rs.map .ok)
      ⟨rest, offset + (rs.flatMap Record.wire).length, false⟩ := by
  induction rs using List.reverseRecOn generalizing rest with
  | nil => exact .nil
  | append_singleton rs r ih =>
    rcases List.forall_mem_append.1 hrs with ⟨hpast, hlast⟩
    have hr : r.Encodable := hlast r (List.mem_singleton_self r)
    have hbefore := ih hpast (r.wire ++ rest)
    rw [List.flatMap_append, List.flatMap_singleton, List.append_assoc, List.map_append,
      List.length_append, ← Nat.add_assoc, r.length_wire]
    apply Yields.snoc hbefore
    rw [call_eq_some_iff, next?_eq_ok_iff]
    exact ⟨hr, rest, rfl, rfl⟩

/-- Any bytes are read to an end. Wherever the calls have led, the reader stands within the bytes and
no range that it asks for lies outside; as long as no call has failed, the records read so far are
encoded as the bytes before the offset. After some records calls give nothing more: at the end of the
bytes, or behind one failure, which names the offset where the reader stays. -/
theorem yields_any (bytes : List UInt8) (encoder : Encoder) :
    (∀ items here, (start bytes).Yields items here → here.offset ≤ bytes.length ∧
      Record.decodeRanges bytes here.offset =
        some ((Record.decodeAt here.offset here.rest).map fun (r, _) => (r, r.size))) ∧
    (∀ (rs : List Record) here, (start bytes).Yields (rs.map .ok) here →
      (∀ r ∈ rs, r.payload.length ≤ maxPayload) ∧
        encoder.encodeAll rs = .ok (bytes.take here.offset)) ∧
    ∃ (rs : List Record) (here : RecordReader), (start bytes).Yields (rs.map .ok) here ∧
      (here.offset = bytes.length ∧ here.Exhausted ∨
        here.offset < bytes.length ∧ ∃ e after, here.call = (some (.error e), after) ∧
          e.offset = here.offset ∧ after.offset = here.offset ∧ after.Exhausted) := by
  refine ⟨fun items here h => ?_, fun rs here h => ?_, ?_⟩
  · have hwithin := Within.of_yields h
    refine ⟨hwithin.offset_le, ?_⟩
    rw [hwithin.rest_eq]
    exact Record.decodeRanges_eq hwithin.offset_le
  · rcases h.passed rfl with ⟨hencodable, htake⟩
    exact ⟨hencodable, Encoder.encodeAll_eq_ok_iff.2 ⟨hencodable, htake⟩⟩
  · rcases exists_splits 0 bytes with ⟨rs, failure, hsplits⟩
    rcases hsplits.rest with ⟨rest, hbytes, hend⟩
    have hyields := yields_records hsplits.encodable rest 0
    rw [← hbytes, Nat.zero_add] at hyields
    refine ⟨rs, _, hyields, ?_⟩
    rcases hend with ⟨-, rfl⟩ | ⟨e, -, hne, herror⟩
    · refine .inl ⟨?_, exhausted_iff.2 (next?_eq_none_iff.2 rfl)⟩
      rw [hbytes, List.append_nil]
    · rw [Nat.zero_add] at herror
      have hcall := call_eq_some_iff.2 (next?_of_error hne herror)
      refine .inr ⟨?_, e, _, hcall, Record.offset_of_decodeAt_error herror, rfl, ?_⟩
      · have hpos := List.length_pos_iff.2 hne
        rw [hbytes, List.length_append]
        dsimp only
        omega
      · exact exhausted_iff.2 (by simp [next?])

/-- One record and a byte that starts no other. -/
theorem yields_any_torn :
    (start ((default : Record).wire ++ [0xFF])).Yields [.ok default] ⟨[0xFF], 18, false⟩ ∧
      Encoder.fresh.encodeAll [default] = .ok (((default : Record).wire ++ [0xFF]).take 18) ∧
      Record.decodeRanges ((default : Record).wire ++ [0xFF]) 18 =
        some ((Record.decodeAt 18 [0xFF]).map fun (r, _) => (r, r.size)) := by
  have hencodable : ∀ r ∈ [(default : Record)], r.Encodable := by decide
  have hyields : (start ((default : Record).wire ++ [0xFF])).Yields [.ok default]
      ⟨[0xFF], 18, false⟩ := yields_records hencodable [0xFF] 0
  rcases yields_any ((default : Record).wire ++ [0xFF]) .fresh with ⟨hranges, hpassed, -⟩
  exact ⟨hyields, (hpassed [default] _ hyields).2, (hranges _ _ hyields).2⟩

end RecordReader

end TraceJournal
