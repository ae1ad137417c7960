import TraceJournal.Proofs.Record.Ranges

/-!
# Reading while bytes arrive

A record at the front of some bytes stays the same when more bytes arrive behind them, and so does what
makes a record impossible there. Only a truncated record waits for more bytes. The number that it asks
for is exact: with fewer bytes it is still truncated, and once its header was there it can be read as
soon as there are that many.
-/
namespace TraceJournal

variable {bytes body rest : List UInt8} {header : Header} {e : DecodeError} {r : Record}
  {offset width n used needed available : Nat} {kind : Kind}

theorem BigEndian.read?_append (h : read? width bytes = some (n, rest)) (more : List UInt8) :
    read? width (bytes ++ more) = some (n, rest ++ more) := by
  rw [read?_eq_some_iff] at h ⊢
  rcases h with ⟨hn, rfl⟩
  exact ⟨hn, List.append_assoc _ _ _⟩

theorem Header.take?_append (h : take? bytes = some (header, body)) (more : List UInt8) :
    take? (bytes ++ more) = some (header, body ++ more) := by
  simp only [take?, bind, Option.bind_eq_some_iff, Prod.exists] at h ⊢
  rcases h with ⟨id, b1, h1, base, b2, h2, context, b3, h3, seconds, b4, h4, useconds, b5, h5, tag, b6,
    h6, length, b7, h7, heq⟩
  cases heq
  exact ⟨id, _, BigEndian.read?_append h1 more, base, _, BigEndian.read?_append h2 more, context, _,
    BigEndian.read?_append h3 more, seconds, _, BigEndian.read?_append h4 more, useconds, _,
    BigEndian.read?_append h5 more, tag, _, BigEndian.read?_append h6 more, length, _,
    BigEndian.read?_append h7 more, rfl⟩

/-- Why bytes at `offset` of a stream do not start with a record. -/
inductive NoRecord (offset : Nat) (bytes : List UInt8) : DecodeError → Prop
  | noHeader (hshort : bytes.length < headerSize) :
      NoRecord offset bytes (.truncated offset headerSize bytes.length)
  | noKind {header : Header} {body : List UInt8}
      (hheader : Header.take? bytes = some (header, body)) (hkind : Kind.ofTag? header.tag = none) :
      NoRecord offset bytes (.unknownKind offset header.tag)
  | tooLarge {header : Header} {body : List UInt8} {kind : Kind}
      (hheader : Header.take? bytes = some (header, body))
      (hkind : Kind.ofTag? header.tag = some kind) (hlong : maxPayload < header.length) :
      NoRecord offset bytes (.payloadTooLarge offset header.length)
  | noPayload {header : Header} {body : List UInt8} {kind : Kind}
      (hheader : Header.take? bytes = some (header, body))
      (hkind : Kind.ofTag? header.tag = some kind) (hfits : header.length ≤ maxPayload)
      (hshort : body.length < header.length) :
      NoRecord offset bytes (.truncated offset (headerSize + header.length) bytes.length)

namespace Record

theorem take?_eq_none_iff : Header.take? bytes = none ↔ bytes.length < headerSize := by
  refine ⟨fun hnone => ?_, take?_eq_none⟩
  by_contra hlong
  rcases Header.ofRanges?_eq (Nat.le_of_not_lt hlong) with ⟨header, -, hsome⟩
  rw [hnone] at hsome
  cases hsome

theorem decodeAt_eq_error_iff : decodeAt offset bytes = .error e ↔ NoRecord offset bytes e := by
  constructor
  · intro h
    unfold decodeAt at h
    split at h
    · next hheader =>
      cases h
      exact .noHeader (take?_eq_none_iff.1 hheader)
    · next header body hheader =>
      split at h
      · next hkind =>
        cases h
        exact .noKind hheader hkind
      · next kind hkind =>
        split at h
        · next hlong =>
          cases h
          exact .tooLarge hheader hkind hlong
        · next hfits =>
          split at h
          · next hbody =>
            cases h
            exact .noPayload hheader hkind (Nat.le_of_not_lt hfits) (TraceJournal.take?_eq_none_iff.1 hbody)
          · cases h
  · intro h
    cases h with
    | noHeader hshort => rw [decodeAt, take?_eq_none hshort]
    | noKind hheader hkind => rw [decodeAt, hheader]; simp only [hkind]
    | tooLarge hheader hkind hlong => rw [decodeAt, hheader]; simp only [hkind, if_pos hlong]
    | noPayload hheader hkind hfits hshort =>
      rw [decodeAt, hheader]
      simp only [hkind, if_neg (Nat.not_lt.2 hfits), TraceJournal.take?_eq_none_iff.2 hshort]

theorem decode_eq_ok_iff :
    decode bytes = .ok (r, used) ↔ r.Encodable ∧ r.wire <+: bytes ∧ used = r.size := by
  rw [decode]
  constructor
  · intro h
    cases hd : decodeAt 0 bytes with
    | error e => rw [hd] at h; cases h
    | ok found =>
      rcases found with ⟨s, rest⟩
      rw [hd] at h
      cases h
      rcases decodeAt_eq_ok_iff.1 hd with ⟨hs, rfl⟩
      exact ⟨hs, List.prefix_append _ _, rfl⟩
  · rintro ⟨hr, ⟨rest, rfl⟩, rfl⟩
    rw [decodeAt_wire_append hr]
    rfl

theorem decode_eq_error_iff : decode bytes = .error e ↔ NoRecord 0 bytes e := by
  rw [← decodeAt_eq_error_iff, decode]
  cases decodeAt 0 bytes <;> simp [Except.map]

/-- A record can be read once all bytes that its header promises are there. -/
theorem exists_decode (hheader : Header.take? bytes = some (header, body))
    (hkind : Kind.ofTag? header.tag = some kind) (hfits : header.length ≤ maxPayload)
    (hbody : header.length ≤ body.length) :
    ∃ r, decode bytes = .ok (r, headerSize + header.length) := by
  have htake : TraceJournal.take? header.length body =
      some (body.take header.length, body.drop header.length) :=
    take?_eq_some_iff.2 ⟨(List.take_append_drop _ _).symm, List.length_take_of_le hbody⟩
  refine ⟨⟨header.id, header.time, kind, body.take header.length⟩, ?_⟩
  rw [decode, decodeAt, hheader]
  simp only [hkind, if_neg (Nat.not_lt.2 hfits), htake]
  rw [Except.map, size, List.length_take_of_le hbody]

/-- A record is not changed by what follows it, and it needs nothing of that. -/
theorem decode_append_of_ok (h : decode bytes = .ok (r, used)) (more : List UInt8) :
    used ≤ bytes.length ∧ decode (bytes ++ more) = .ok (r, used) ∧
      decode (bytes.take used) = .ok (r, used) := by
  rcases decode_eq_ok_iff.1 h with ⟨hr, hprefix, rfl⟩
  have hlength := hprefix.length_le
  rw [r.length_wire] at hlength
  refine ⟨hlength, decode_eq_ok_iff.2 ⟨hr, hprefix.trans (List.prefix_append _ _), rfl⟩, ?_⟩
  rw [← r.length_wire, ← List.prefix_iff_eq_take.1 hprefix]
  exact decode_eq_ok_iff.2 ⟨hr, List.prefix_refl _, r.length_wire⟩

theorem decode_append_of_unknownKind {tag : UInt8} (h : decode bytes = .error (.unknownKind offset tag))
    (more : List UInt8) : decode (bytes ++ more) = .error (.unknownKind offset tag) := by
  rw [decode_eq_error_iff] at h ⊢
  cases h with
  | noKind hheader hkind => exact .noKind (Header.take?_append hheader more) hkind

theorem decode_append_of_payloadTooLarge {length : Nat}
    (h : decode bytes = .error (.payloadTooLarge offset length)) (more : List UInt8) :
    decode (bytes ++ more) = .error (.payloadTooLarge offset length) := by
  rw [decode_eq_error_iff] at h ⊢
  cases h with
  | tooLarge hheader hkind hlong => exact .tooLarge (Header.take?_append hheader more) hkind hlong

theorem of_decode_truncated (h : decode bytes = .error (.truncated offset needed available)) :
    available = bytes.length ∧ available < needed ∧ needed ≤ maxRecordSize := by
  cases decode_eq_error_iff.1 h with
  | noHeader hshort => exact ⟨rfl, hshort, by decide⟩
  | noPayload hheader hkind hfits hshort =>
    have hlength := Header.length_of_take? hheader
    exact ⟨rfl, by omega, Nat.add_le_add_left hfits headerSize⟩

/-- With fewer bytes than it asks for, a truncated record asks for the same number again. -/
theorem decode_append_of_still_truncated
    (h : decode bytes = .error (.truncated offset needed available)) {more : List UInt8}
    (hstill : (bytes ++ more).length < needed) :
    decode (bytes ++ more) = .error (.truncated offset needed (bytes ++ more).length) := by
  rw [decode_eq_error_iff] at h ⊢
  cases h with
  | noHeader hshort => exact .noHeader hstill
  | noPayload hheader hkind hfits hshort =>
    have hlater := Header.take?_append hheader more
    have hlength := Header.length_of_take? hlater
    exact .noPayload hlater hkind hfits (by omega)

/-- A record whose header was there takes the bytes that it asked for. -/
theorem decode_append_of_enough (h : decode bytes = .error (.truncated offset needed available))
    (hneeded : headerSize < needed) {more : List UInt8} (henough : needed ≤ (bytes ++ more).length) :
    ∃ r, decode (bytes ++ more) = .ok (r, needed) := by
  cases decode_eq_error_iff.1 h with
  | noHeader hshort => exact absurd hneeded (Nat.lt_irrefl _)
  | noPayload hheader hkind hfits hshort =>
    have hlater := Header.take?_append hheader more
    have hlength := Header.length_of_take? hlater
    exact exists_decode hlater hkind hfits (by omega)

/-- What is read of some bytes, and of these bytes with more behind them. A record stays what it is, and
needs no bytes but its own; an unknown kind and a payload that is too large stay as well. A truncated
record asks for at least one byte more, and for no more than the largest record has. -/
theorem decode_append (bytes more : List UInt8) :
    (∀ r used, decode bytes = .ok (r, used) → used ≤ bytes.length ∧
      decode (bytes ++ more) = .ok (r, used) ∧ decode (bytes.take used) = .ok (r, used)) ∧
    (∀ offset tag, decode bytes = .error (.unknownKind offset tag) →
      decode (bytes ++ more) = .error (.unknownKind offset tag)) ∧
    (∀ offset length, decode bytes = .error (.payloadTooLarge offset length) →
      decode (bytes ++ more) = .error (.payloadTooLarge offset length)) ∧
    ∀ offset needed available, decode bytes = .error (.truncated offset needed available) →
      available = bytes.length ∧ available < needed ∧ needed ≤ maxRecordSize ∧
      ((bytes ++ more).length < needed →
        decode (bytes ++ more) = .error (.truncated offset needed (bytes ++ more).length)) ∧
      (headerSize < needed → needed ≤ (bytes ++ more).length →
        ∃ r, decode (bytes ++ more) = .ok (r, needed)) := by
  refine ⟨fun r used h => decode_append_of_ok h more,
    fun offset tag h => decode_append_of_unknownKind h more,
    fun offset length h => decode_append_of_payloadTooLarge h more, ?_⟩
  intro offset needed available h
  rcases of_decode_truncated h with ⟨havailable, hlt, hle⟩
  refine ⟨havailable, hlt, hle, decode_append_of_still_truncated h, fun hneeded henough => ?_⟩
  exact decode_append_of_enough h hneeded henough

/-- A record without its payload asks for twenty bytes, and two more are enough. -/
theorem decode_append_payload :
    decode (heading ⟨7, default, .user, [1, 2]⟩) = .error (.truncated 0 20 18) ∧
      ∃ r, decode (heading ⟨7, default, .user, [1, 2]⟩ ++ [1, 2]) = .ok (r, 20) := by
  have htorn : decode (heading ⟨7, default, .user, [1, 2]⟩) = .error (.truncated 0 20 18) := by decide
  rcases decode_append (heading ⟨7, default, .user, [1, 2]⟩) [1, 2] with ⟨-, -, -, htruncated⟩
  rcases htruncated 0 20 18 htorn with ⟨-, -, -, -, henough⟩
  exact ⟨htorn, henough (by decide) (by decide)⟩

end Record

end TraceJournal
