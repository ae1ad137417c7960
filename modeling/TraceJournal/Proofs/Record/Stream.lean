import TraceJournal.Proofs.Record.Encoding

/-!
# Reading a stream of records

The reader gives back the records that were written one after the other. If the last one was cut
off, it ends with one failure that says where that record starts and how much of it there is.
-/
namespace TraceJournal

/-- A beginning that lacks at least the last element. -/
def StrictPrefix {α : Type} (part whole : List α) : Prop := part <+: whole ∧ part ≠ whole

theorem StrictPrefix.length_lt {α : Type} {part whole : List α} (h : StrictPrefix part whole) :
    part.length < whole.length := by
  have hne : part.length ≠ whole.length := fun he => h.2 (h.1.eq_of_length he)
  exact Nat.lt_of_le_of_ne h.1.length_le hne

theorem StrictPrefix.nil_cons {α : Type} (a : α) (rest : List α) : StrictPrefix [] (a :: rest) :=
  ⟨List.nil_prefix, by simp⟩

theorem StrictPrefix.append_left {α : Type} {part whole : List α} (front : List α)
    (h : StrictPrefix part whole) : StrictPrefix (front ++ part) (front ++ whole) :=
  ⟨(List.prefix_append_right_inj front).2 h.1, fun he => h.2 (List.append_cancel_left he)⟩

namespace BigEndian

theorem read?_one (b : UInt8) (rest : List UInt8) : read? 1 (b :: rest) = some (b.toNat, rest) := by
  simp [read?, take?, value]

end BigEndian

namespace Record

def heading (r : Record) : List UInt8 := r.fields.dropLast.flatten

theorem wire_eq (r : Record) : r.wire = r.heading ++ r.payload := by
  simp [wire, heading, fields]

theorem length_heading (r : Record) : r.heading.length = headerSize := by
  simp [heading, fields, headerSize]

/-- A heading reads back as the fields that it was written from. -/
theorem take?_heading {r : Record} (h : r.Encodable) (rest : List UInt8) :
    Header.take? (r.heading ++ rest) =
      some (⟨r.id, r.time, r.kind.tag, r.payload.length⟩, rest) := by
  have hlt : r.payload.length < 65536 := Nat.lt_of_le_of_lt h (by decide)
  simp only [heading, fields, List.dropLast_cons_cons, List.dropLast_singleton,
    List.flatten_cons, List.flatten_nil, List.append_assoc, List.append_nil, List.singleton_append,
    Header.take?, BigEndian.read?_digits_append, Option.bind_some, bind]
  simp [BigEndian.read?_one, BigEndian.read?_digits_append, Nat.mod_eq_of_lt hlt]

theorem take?_eq_none {bytes : List UInt8} (h : bytes.length < headerSize) :
    Header.take? bytes = none := by
  cases ht : Header.take? bytes with
  | none => rfl
  | some found =>
    have := Header.length_of_take? ht
    omega

/-- What was written reads back, whatever follows. -/
theorem decodeAt_wire_append {r : Record} (h : r.Encodable) (offset : Nat) (rest : List UInt8) :
    decodeAt offset (r.wire ++ rest) = .ok (r, rest) := by
  have hn : ¬ maxPayload < r.payload.length := Nat.not_lt.2 h
  rw [decodeAt, wire_eq, List.append_assoc, take?_heading h]
  simp only [Kind.ofTag?_tag, if_neg hn, take?_append]

/-- The bytes that a reader asks for when it has `available` bytes of a record. -/
def needed (r : Record) (available : Nat) : Nat :=
  if available < headerSize then headerSize else r.size

/-- A record that was cut off is refused as such, however much of it is there. -/
theorem decodeAt_strictPrefix {r : Record} {torn : List UInt8} (h : r.Encodable)
    (ht : StrictPrefix torn r.wire) (offset : Nat) :
    decodeAt offset torn = .error (.truncated offset (r.needed torn.length) torn.length) := by
  have hlt := ht.length_lt
  by_cases hs : torn.length < headerSize
  · rw [decodeAt, take?_eq_none hs, needed, if_pos hs]
  · -- The heading is there, so what is missing is missing from the payload.
    have hp : r.heading <+: torn := by
      refine List.prefix_of_prefix_length_le ⟨r.payload, (wire_eq r).symm⟩ ht.1 ?_
      rw [length_heading]
      omega
    obtain ⟨part, rfl⟩ := hp
    have hpart : take? r.payload.length part = none := by
      rw [take?_eq_none_iff]
      rw [wire_eq, List.length_append, List.length_append] at hlt
      omega
    have hn : ¬ maxPayload < r.payload.length := Nat.not_lt.2 h
    rw [decodeAt, take?_heading h, needed, if_neg hs]
    simp only [Kind.ofTag?_tag, if_neg hn, hpart, size]

end Record

namespace RecordReader

theorem items_of_next?_none {reader : RecordReader} (h : reader.next? = none) :
    reader.items = [] := by
  rw [items]
  split
  · rfl
  · next hs => simp [h] at hs

theorem items_of_next?_some {reader after : RecordReader} {item : Except DecodeError Record}
    (h : reader.next? = some (item, after)) : reader.items = (item, after) :: after.items := by
  rw [items]
  split
  · next hn => simp [h] at hn
  · next hs =>
    rw [h] at hs
    cases hs
    rfl

theorem items_done (rest : List UInt8) (offset : Nat) : items ⟨rest, offset, true⟩ = [] :=
  items_of_next?_none (by simp [next?])

theorem items_nil (offset : Nat) : items ⟨[], offset, false⟩ = [] :=
  items_of_next?_none (by simp [next?])

theorem items_wire_append {r : Record} (h : r.Encodable) (rest : List UInt8) (offset : Nat) :
    items ⟨r.wire ++ rest, offset, false⟩ =
      (.ok r, ⟨rest, offset + r.size, false⟩) :: items ⟨rest, offset + r.size, false⟩ :=
  items_of_next?_some (by simp [next?, r.wire_ne_nil, Record.decodeAt_wire_append h])

/-- Records written one after the other come back in that order, and then what follows them. -/
theorem items_flatMap_wire {rs : List Record} (h : ∀ r ∈ rs, r.Encodable) (rest : List UInt8)
    (offset : Nat) :
    (items ⟨rs.flatMap Record.wire ++ rest, offset, false⟩).map (·.1) =
      rs.map .ok ++
        (items ⟨rest, offset + (rs.flatMap Record.wire).length, false⟩).map (·.1) := by
  induction rs generalizing offset with
  | nil => simp
  | cons r rs ih =>
    have hr : r.Encodable := h r List.mem_cons_self
    have hrs : ∀ s ∈ rs, s.Encodable := fun s hs => h s (List.mem_cons_of_mem r hs)
    rw [List.flatMap_cons, List.append_assoc, items_wire_append hr, List.map_cons, ih hrs]
    simp [Record.length_wire, Nat.add_assoc]

/-- A record that was cut off ends the stream. -/
theorem items_strictPrefix {r : Record} {torn : List UInt8} (h : r.Encodable)
    (ht : StrictPrefix torn r.wire) (hne : torn ≠ []) (offset : Nat) :
    (items ⟨torn, offset, false⟩).map (·.1) =
      [.error (.truncated offset (r.needed torn.length) torn.length)] := by
  have hn : next? ⟨torn, offset, false⟩ =
      some (.error (.truncated offset (r.needed torn.length) torn.length),
        ⟨torn, offset, true⟩) := by
    simp [next?, hne, Record.decodeAt_strictPrefix h ht]
  rw [items_of_next?_some hn, items_done]
  rfl

end RecordReader

end TraceJournal
