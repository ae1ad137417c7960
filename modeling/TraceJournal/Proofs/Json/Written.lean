import TraceJournal.Proofs.Json.Tokens
import TraceJournal.Proofs.Value

/-!
# Written JSON is JSON

What the printer writes of data without floating point numbers is spelled as the grammar of JSON wants
it, in either style.
-/
namespace TraceJournal.Json

namespace Lexer

def hexByte (n : Nat) : UInt8 := UInt8.ofNat (if n < 10 then 0x30 + n else 0x57 + n)

/-- A byte of a string is written as it is, or by a short escape, or by a numeric one. -/
theorem writeByte_cases (b : UInt8) :
    (writeByte b = [b] ∧ b ≠ 0x22 ∧ b ≠ 0x5C ∧ ¬ b < 0x20) ∨
    (∃ e, writeByte b = [0x5C, e] ∧ e ≠ 0x75 ∧ Token.escaped? e = some b) ∨
    (writeByte b = [0x5C, 0x75, 0x30, 0x30, hexByte (b.toNat / 16), hexByte (b.toNat % 16)] ∧
      b < 0x20) := by
  unfold writeByte
  split
  · exact .inr (.inl ⟨_, rfl, by decide, rfl⟩)
  · exact .inr (.inl ⟨_, rfl, by decide, rfl⟩)
  · exact .inr (.inl ⟨_, rfl, by decide, rfl⟩)
  · exact .inr (.inl ⟨_, rfl, by decide, rfl⟩)
  · exact .inr (.inl ⟨_, rfl, by decide, rfl⟩)
  · exact .inr (.inl ⟨_, rfl, by decide, rfl⟩)
  · exact .inr (.inl ⟨_, rfl, by decide, rfl⟩)
  · next hquote hslash _ _ _ _ _ =>
    split
    · next hlow => exact .inr (.inr ⟨rfl, hlow⟩)
    · next hlow => exact .inl ⟨rfl, hquote, hslash, hlow⟩

end Lexer

open Lexer (hexByte writeByte_cases)

theorem hexDigit_hexByte {n : Nat} (h : n < 16) : HexDigit n (hexByte n) := by
  rw [hexByte]
  split
  · next hn => exact .decimal hn
  · next hn =>
    have hlower := HexDigit.lower (d := n - 10) (by omega)
    have hten : 10 + (n - 10) = n := by omega
    have hbyte : 0x61 + (n - 10) = 0x57 + n := by omega
    rwa [hten, hbyte] at hlower

theorem mem_shortEscapes {b letter : UInt8} (h : Token.escaped? letter = some b) :
    (b.toNat, letter) ∈ shortEscapes := by
  unfold Token.escaped? at h
  split at h <;> cases h <;> decide

theorem writeByte_of_le {b : UInt8} (hb : 0x80 ≤ b) : writeByte b = [b] := by
  obtain ⟨hw, -⟩ | ⟨e, -, -, he⟩ | ⟨-, hlow⟩ := writeByte_cases b
  · exact hw
  · unfold Token.escaped? at he
    split at he <;> cases he <;> exact absurd hb (by decide)
  · exact absurd (UInt8.lt_of_le_of_lt hb hlow) (by decide)

theorem spellsChar_write (c : Char) :
    SpellsChar c ((String.utf8EncodeChar c).flatMap writeByte) := by
  rcases Nat.lt_or_ge c.toNat 128 with hlow | hhigh
  · obtain ⟨b, hb, hbytes⟩ : ∃ b : UInt8, b.toNat = c.toNat ∧ String.utf8EncodeChar c = [b] := by
      refine ⟨UInt8.ofNat c.toNat, ?_, Text.utf8EncodeChar_of_lt hlow⟩
      rw [UInt8.toNat_ofNat']
      omega
    rw [hbytes, List.flatMap_singleton]
    obtain ⟨hw, hquote, hslash, hvisible⟩ | ⟨letter, hw, -, he⟩ | ⟨hw, hcontrol⟩ := writeByte_cases b
    · simp only [ne_eq, ← UInt8.toNat_inj, UInt8.lt_iff_toNat_lt, hb, Nat.not_lt]
        at hquote hslash hvisible
      rw [hw, ← hbytes]
      exact .plain hvisible hquote hslash
    · rw [hw]
      exact .short (hb ▸ mem_shortEscapes he)
    · -- A control character without a letter is a unit whose first two digits are zeros.
      have hlt : b.toNat < 32 := UInt8.lt_iff_toNat_lt.1 hcontrol
      have hunit := SpellsUnit.escape (.decimal (d := 0) (by decide)) (.decimal (d := 0) (by decide))
        (hexDigit_hexByte (n := b.toNat / 16) (by omega))
        (hexDigit_hexByte (n := b.toNat % 16) (by omega))
      have hcode : ((0 * 16 + 0) * 16 + b.toNat / 16) * 16 + b.toNat % 16 = c.toNat := by omega
      rw [hw]
      exact .unit (hcode ▸ hunit)
  · have hsame : ∀ b ∈ String.utf8EncodeChar c, writeByte b = [b] :=
      fun b hb => writeByte_of_le (Text.le_of_mem_utf8EncodeChar hhigh b hb)
    rw [List.flatMap_congr hsame, List.flatMap_singleton']
    exact .plain (by omega) (by omega) (by omega)

theorem spellsString_write (s : String) : SpellsString s (writeString s) := by
  have hinside : SpellsChars s.toList ((Text.utf8 s).flatMap writeByte) := by
    rw [Text.utf8_eq_flatMap, List.flatMap_assoc]
    induction s.toList with
    | nil => exact .nil
    | cons c cs ih => exact .cons (spellsChar_write c) ih
  exact .quoted hinside

theorem Blank.nil : Blank [] := by simp [Blank]

theorem blank_lineBreak (style : Style) : Blank style.lineBreak := by
  cases style with
  | compact => exact .nil
  | indented level => simp [Style.lineBreak, Blank, List.mem_replicate]

theorem separator_comma (style : Style) : Separator 0x2C (0x2C :: style.lineBreak) :=
  .blanks .nil (blank_lineBreak style)

theorem separator_colon (style : Style) : Separator 0x3A style.colon := by
  cases style with
  | compact => exact .blanks .nil .nil
  | indented level => exact .blanks .nil (by simp [Blank])

theorem spellsItems_write {style : Style} {items : List Value}
    (h : ∀ v ∈ items, Spells v (write style v)) : SpellsItems items (writeItems style items) := by
  induction items with
  | nil => exact .noItem
  | cons item items ih =>
    obtain ⟨hitem, hitems⟩ := List.forall_mem_cons.1 h
    exact .item (separator_comma style) hitem (ih hitems)

theorem spellsMember_write (outer : Style) {style : Style} {m : String × Value}
    (h : Spells m.2 (write style m.2)) :
    SpellsMember m (writeString m.1 ++ outer.colon ++ write style m.2) :=
  .named (spellsString_write m.1) (separator_colon outer) h

theorem spellsMembers_write {style : Style} {members : List (String × Value)}
    (h : ∀ m ∈ members, Spells m.2 (write style m.2)) :
    SpellsMembers members (writeMembers style members) := by
  induction members with
  | nil => exact .noMember
  | cons m members ih =>
    obtain ⟨hm, hmembers⟩ := List.forall_mem_cons.1 h
    have hall := SpellsMembers.member (separator_comma style) (spellsMember_write style hm)
      (ih hmembers)
    simpa [writeMembers] using hall

/-- What is written is spelled as it has to be. -/
theorem spells_write {v : Value} (h : v.all Value.isPlain = true) (style : Style) :
    Spells v (write style v) := by
  induction v generalizing style with
  | null =>
    have hword : write style .null = [0x6E, 0x75, 0x6C, 0x6C] := by
      rw [write]
      decide
    exact hword ▸ .null
  | bool b =>
    cases b with
    | false =>
      have hword : write style (.bool false) = [0x66, 0x61, 0x6C, 0x73, 0x65] := by
        rw [write]
        decide
      exact hword ▸ .false
    | true =>
      have hword : write style (.bool true) = [0x74, 0x72, 0x75, 0x65] := by
        rw [write]
        decide
      exact hword ▸ .true
  | int n =>
    rw [write]
    exact .int (by simpa [Value.all, Value.isPlain] using h)
  | float x => simp [Value.all, Value.isPlain] at h
  | text s =>
    rw [write]
    exact .text (spellsString_write s)
  | list items ih =>
    cases items with
    | nil =>
      rw [write]
      exact .emptyList .nil
    | cons item items =>
      obtain ⟨-, hparts⟩ := Value.all_list_iff.1 h
      have hall : ∀ v ∈ item :: items, Spells v (write style.inner v) :=
        fun v hv => ih v hv (hparts v hv) style.inner
      obtain ⟨hitem, hitems⟩ := List.forall_mem_cons.1 hall
      have hlist := Spells.list (blank_lineBreak style.inner) hitem (spellsItems_write hitems)
        (blank_lineBreak style)
      simpa [write] using hlist
  | object members ih =>
    cases members with
    | nil =>
      rw [write]
      exact .emptyObject .nil
    | cons m members =>
      obtain ⟨-, hparts⟩ := Value.all_object_iff.1 h
      have hall : ∀ m' ∈ m :: members, Spells m'.2 (write style.inner m'.2) :=
        fun m' hm' => ih m' hm' (hparts m' hm') style.inner
      obtain ⟨hm, hmembers⟩ := List.forall_mem_cons.1 hall
      have hobject := Spells.object (blank_lineBreak style.inner) (spellsMember_write style hm)
        (spellsMembers_write hmembers) (blank_lineBreak style)
      simpa [write] using hobject

theorem isText_write {v : Value} (h : v.all Value.isPlain = true) (style : Style) :
    IsText v (write style v) := by
  have hpadded := IsText.padded .nil (spells_write h style) .nil
  rwa [List.nil_append, List.append_nil] at hpadded

end TraceJournal.Json
