import TraceJournal.Proofs.Except
import TraceJournal.Proofs.Record.Stream
import Mathlib.Data.List.Induction

/-!
# Reading exactly what was written

Every field of a header can be written back from what was read of it, so bytes that read as a record
are its wire form, and a stream that reads without a failure is the wire forms of its records with
nothing in between.
-/
namespace TraceJournal

namespace BigEndian

theorem value_snoc (bytes : List UInt8) (b : UInt8) :
    value (bytes ++ [b]) = value bytes * 256 + b.toNat := by
  simp [value]

/-- Writing the number that some bytes write gives these bytes back. -/
theorem digits_value (bytes : List UInt8) : digits bytes.length (value bytes) = bytes := by
  induction bytes using List.reverseRecOn with
  | nil => rfl
  | append_singleton bytes b ih =>
    have hb := b.toNat_lt
    have hhigh : (value bytes * 256 + b.toNat) / 256 = value bytes := by omega
    have hlow : UInt8.ofNat (value bytes * 256 + b.toNat) = b := by
      rw [← UInt8.toNat_inj, UInt8.toNat_ofNat']
      omega
    rw [List.length_append, List.length_singleton, value_snoc, digits, hhigh, hlow, ih]

theorem value_lt (bytes : List UInt8) : value bytes < Nat.pow 256 bytes.length := by
  have h := value_digits bytes.length (value bytes)
  rw [digits_value] at h
  rw [h]
  exact Nat.mod_lt _ (Nat.pow_pos (by decide))

theorem read?_eq_some_iff {width n : Nat} {bytes rest : List UInt8} :
    read? width bytes = some (n, rest) ↔
      n < Nat.pow 256 width ∧ bytes = digits width n ++ rest := by
  constructor
  · intro h
    simp only [read?, Option.map_eq_some_iff, Prod.exists, Prod.mk.injEq] at h
    obtain ⟨head, tail, ht, rfl, rfl⟩ := h
    obtain ⟨rfl, rfl⟩ := take?_eq_some_iff.1 ht
    exact ⟨value_lt head, by rw [digits_value]⟩
  · rintro ⟨hn, rfl⟩
    rw [read?_digits_append, Nat.mod_eq_of_lt hn]

end BigEndian

namespace Record

/-- A header whose tag stands for a kind was written for a record of that kind. -/
theorem eq_heading_append {bytes body payload : List UInt8} {header : Header} {kind : Kind}
    (h : Header.take? bytes = some (header, body)) (hk : Kind.ofTag? header.tag = some kind)
    (hp : payload.length = header.length) :
    bytes = heading ⟨header.id, header.time, kind, payload⟩ ++ body := by
  simp only [Header.take?, bind, Option.bind_eq_some_iff, Prod.exists, pure, Option.some.injEq,
    Prod.mk.injEq, BigEndian.read?_eq_some_iff] at h
  obtain ⟨id, _, ⟨hid, rfl⟩, base, _, ⟨hbase, rfl⟩, context, _, ⟨-, rfl⟩, seconds, _,
    ⟨hseconds, rfl⟩, useconds, _, ⟨huseconds, rfl⟩, tag, _, ⟨-, rfl⟩, length, _, ⟨-, rfl⟩,
    rfl, rfl⟩ := h
  have htag := Kind.tag_of_ofTag? hk
  dsimp only at htag hp
  -- A number below the size of its word is not changed by the word.
  simp only [heading, fields, List.dropLast_cons_cons, List.dropLast_singleton,
    List.flatten_cons, List.flatten_nil, List.append_nil, List.append_assoc, hp,
    UInt32.toNat_ofNat_of_lt' hid, UInt16.toNat_ofNat_of_lt' hbase,
    UInt32.toNat_ofNat_of_lt' hseconds, UInt32.toNat_ofNat_of_lt' huseconds, ← htag]
  rfl

/-- The wire forms of encodable records read as these records, and nothing else reads as one. -/
theorem decodeAt_eq_ok_iff {offset : Nat} {bytes rest : List UInt8} {r : Record} :
    decodeAt offset bytes = .ok (r, rest) ↔ r.Encodable ∧ bytes = r.wire ++ rest := by
  constructor
  · intro h
    unfold decodeAt at h
    split at h
    · cases h
    · next header body hh =>
      split at h
      · cases h
      · next kind hk =>
        split at h
        · cases h
        · next hl =>
          split at h
          · cases h
          · next payload tail ht =>
            cases h
            obtain ⟨rfl, hp⟩ := take?_eq_some_iff.1 ht
            refine ⟨?_, ?_⟩
            · rw [Encodable, hp]
              exact Nat.le_of_not_lt hl
            · rw [eq_heading_append hh hk hp, wire_eq, List.append_assoc]
  · rintro ⟨hr, rfl⟩
    exact decodeAt_wire_append hr offset rest

end Record

namespace RecordReader

variable {bytes : List UInt8} {offset : Nat}

theorem next?_eq_none_iff : next? ⟨bytes, offset, false⟩ = none ↔ bytes = [] := by
  cases bytes with
  | nil => simp [next?]
  | cons b bs =>
    simp only [next?, List.isEmpty_cons, Bool.or_self, Bool.false_eq_true, if_false, reduceCtorEq,
      iff_false]
    split <;> simp

theorem next?_eq_ok_iff {r : Record} {after : RecordReader} :
    next? ⟨bytes, offset, false⟩ = some (.ok r, after) ↔
      r.Encodable ∧ ∃ rest, bytes = r.wire ++ rest ∧ after = ⟨rest, offset + r.size, false⟩ := by
  constructor
  · intro h
    unfold next? at h
    split at h
    · cases h
    · split at h
      · next s rest hd =>
        cases h
        obtain ⟨hr, hb⟩ := Record.decodeAt_eq_ok_iff.1 hd
        exact ⟨hr, rest, hb, rfl⟩
      · cases h
  · rintro ⟨hr, rest, rfl, rfl⟩
    simp [next?, r.wire_ne_nil, Record.decodeAt_wire_append hr]

/-- A stream without a failure is the wire forms of its records, one after the other. -/
theorem items_eq_ok_iff {rs : List Record} :
    (items ⟨bytes, offset, false⟩).map (·.1) = rs.map .ok ↔
      (∀ r ∈ rs, r.Encodable) ∧ bytes = rs.flatMap Record.wire := by
  constructor
  · intro h
    induction rs generalizing bytes offset with
    | nil =>
      cases hn : next? ⟨bytes, offset, false⟩ with
      | none => exact ⟨by simp, next?_eq_none_iff.1 hn⟩
      | some found => simp [items_of_next?_some hn] at h
    | cons r rs ih =>
      cases hn : next? ⟨bytes, offset, false⟩ with
      | none => simp [items_of_next?_none hn] at h
      | some found =>
        obtain ⟨item, after⟩ := found
        rw [items_of_next?_some hn, List.map_cons, List.map_cons, List.cons.injEq] at h
        obtain ⟨rfl, hrest⟩ := h
        obtain ⟨hr, rest, rfl, rfl⟩ := next?_eq_ok_iff.1 hn
        obtain ⟨hrs, rfl⟩ := ih hrest
        exact ⟨List.forall_mem_cons.2 ⟨hr, hrs⟩, List.flatMap_cons.symm⟩
  · rintro ⟨hrs, rfl⟩
    have h := items_flatMap_wire hrs [] offset
    rwa [List.append_nil, items_nil, List.map_nil, List.append_nil] at h

end RecordReader

theorem Record.decodeAll_eq_ok_iff {bytes : List UInt8} {rs : List Record} :
    decodeAll bytes = .ok rs ↔ (∀ r ∈ rs, r.Encodable) ∧ bytes = rs.flatMap wire := by
  rw [decodeAll, mapM_eq_ok_iff, RecordReader.start, RecordReader.items_eq_ok_iff]

namespace Encoder

/-- Encodes records one after the other through the same buffer, and joins the bytes that each of
them covers. -/
def encodeAll : List Record → Encoder → Except LogError (List UInt8)
  | [], _ => .ok []
  | r :: rs, e => do
    let bytes ← (encode r e).1
    let rest ← encodeAll rs (encode r e).2
    return bytes ++ rest

theorem encodeAll_eq_ok_iff {rs : List Record} {e : Encoder} {bytes : List UInt8} :
    e.encodeAll rs = .ok bytes ↔ (∀ r ∈ rs, r.Encodable) ∧ bytes = rs.flatMap Record.wire := by
  induction rs generalizing e bytes with
  | nil => simp [encodeAll, eq_comm]
  | cons r rs ih =>
    simp only [encodeAll, bind_eq_ok_iff, pure, Except.pure, Except.ok.injEq, ih,
      List.forall_mem_cons, List.flatMap_cons]
    by_cases hr : r.Encodable
    · rw [encode_of_encodable hr]
      constructor
      · rintro ⟨_, hfront, _, ⟨hrs, rfl⟩, rfl⟩
        cases hfront
        exact ⟨⟨hr, hrs⟩, rfl⟩
      · rintro ⟨⟨-, hrs⟩, rfl⟩
        exact ⟨_, rfl, _, ⟨hrs, rfl⟩, rfl⟩
    · simp [encode_of_not_encodable hr, hr]

/-- Bytes read as some records exactly if the wire can carry all of them and encoding them gives
these bytes, whatever the encoder was used for before. -/
theorem decodeAll_iff_encodeAll (e : Encoder) (bytes : List UInt8) (rs : List Record) :
    Record.decodeAll bytes = .ok rs ↔
      (∀ r ∈ rs, r.payload.length ≤ maxPayload) ∧ e.encodeAll rs = .ok bytes := by
  rw [Record.decodeAll_eq_ok_iff, encodeAll_eq_ok_iff]
  constructor
  · rintro ⟨hrs, hbytes⟩
    exact ⟨hrs, hrs, hbytes⟩
  · rintro ⟨-, hrs, hbytes⟩
    exact ⟨hrs, hbytes⟩

end Encoder

end TraceJournal
