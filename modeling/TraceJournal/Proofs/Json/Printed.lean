import TraceJournal.Proofs.Json.Written

/-!
# JSON on one line

Written without blanks, data is text without control characters, since a string writes its own as
escapes.
-/
namespace TraceJournal.Json

open Text (Printed)

theorem printed_flatMap_writeByte (c : Char) :
    Printed ((String.utf8EncodeChar c).flatMap writeByte) := by
  rcases Nat.lt_or_ge c.toNat 128 with hlow | hhigh
  · have hascii : ∀ n : Fin 128, (writeByte (UInt8.ofNat n)).all Text.isVisible = true := by decide
    rw [Text.utf8EncodeChar_of_lt hlow, List.flatMap_singleton]
    exact .ascii (hascii ⟨c.toNat, hlow⟩)
  · have hsame : ∀ b ∈ String.utf8EncodeChar c, writeByte b = [b] :=
      fun b hb => writeByte_of_le (Text.le_of_mem_utf8EncodeChar hhigh b hb)
    rw [List.flatMap_congr hsame, List.flatMap_singleton']
    exact .char hhigh

theorem printed_writeString (s : String) : Printed (writeString s) := by
  have hquote : Printed [0x22] := .ascii (by decide)
  have hinside : Printed ((Text.utf8 s).flatMap writeByte) := by
    rw [Text.utf8_eq_flatMap, List.flatMap_assoc]
    induction s.toList with
    | nil => exact .nil
    | cons c cs ih => exact (printed_flatMap_writeByte c).append ih
  exact (hquote.append hinside).append hquote

theorem printed_writeInt (n : Int) : Printed (writeInt n) := by
  have hdigit : ∀ d : Fin 10, Text.isVisible (Text.digitByte d) = true := by decide
  have hrepr (k : Nat) : Printed (Text.utf8 (Nat.repr k)) := by
    rw [Text.utf8_repr]
    refine .ascii (List.all_eq_true.2 (List.forall_mem_map.2 fun d hd => ?_))
    exact hdigit ⟨d, Text.lt_of_mem_decimals hd⟩
  have hsign : Printed (Text.utf8 "-") := .ascii (by decide)
  rw [Lexer.writeInt_eq]
  split
  · rw [Text.utf8_append]
    exact hsign.append (hrepr _)
  · exact hrepr _

theorem printed_writeItems {items : List Value} (h : ∀ v ∈ items, Printed (compact v)) :
    Printed (writeItems .compact items) := by
  induction items with
  | nil => exact .nil
  | cons item items ih =>
    obtain ⟨hitem, hitems⟩ := List.forall_mem_cons.1 h
    have hcomma : Printed [0x2C] := .ascii (by decide)
    exact (hcomma.append hitem).append (ih hitems)

theorem printed_writeMembers {members : List (String × Value)}
    (h : ∀ m ∈ members, Printed (compact m.2)) : Printed (writeMembers .compact members) := by
  induction members with
  | nil => exact .nil
  | cons m members ih =>
    obtain ⟨hm, hmembers⟩ := List.forall_mem_cons.1 h
    have hcomma : Printed [0x2C] := .ascii (by decide)
    have hcolon : Printed [0x3A] := .ascii (by decide)
    have hname := (hcomma.append (printed_writeString m.1)).append hcolon
    exact (hname.append hm).append (ih hmembers)

theorem compact_object {members : List (String × Value)} (hne : members ≠ [])
    (h : ∀ m ∈ members, Printed (compact m.2)) :
    ∃ inside, Printed inside ∧ compact (.object members) = [0x7B] ++ inside ++ [0x7D] := by
  obtain ⟨m, members, rfl⟩ := List.exists_cons_of_ne_nil hne
  obtain ⟨hm, hrest⟩ := List.forall_mem_cons.1 h
  have hcolon : Printed [0x3A] := .ascii (by decide)
  have hfront := ((printed_writeString m.1).append hcolon).append hm
  refine ⟨_, hfront.append (printed_writeMembers hrest), ?_⟩
  simp [compact, write, Style.inner, Style.lineBreak, Style.colon]

/-- Data without floating point numbers keeps to one line. -/
theorem printed_compact {v : Value} (h : v.all Value.isPlain = true) : Printed (compact v) := by
  induction v with
  | null => exact .ascii (by decide)
  | bool b => cases b <;> exact .ascii (by decide)
  | int n => exact printed_writeInt n
  | float x => simp [Value.all, Value.isPlain] at h
  | text s => exact printed_writeString s
  | list items ih =>
    obtain ⟨-, hitems⟩ := Value.all_list_iff.1 h
    have hopen : Printed [0x5B] := .ascii (by decide)
    have hclose : Printed [0x5D] := .ascii (by decide)
    cases items with
    | nil => exact hopen.append hclose
    | cons item items =>
      obtain ⟨hitem, hrest⟩ := List.forall_mem_cons.1 fun v hv => ih v hv (hitems v hv)
      have hbody := (hopen.append hitem).append (printed_writeItems hrest)
      simpa [compact, write, Style.inner, Style.lineBreak] using hbody.append hclose
  | object members ih =>
    obtain ⟨-, hmembers⟩ := Value.all_object_iff.1 h
    have hopen : Printed [0x7B] := .ascii (by decide)
    have hclose : Printed [0x7D] := .ascii (by decide)
    by_cases hne : members = []
    · rw [hne]
      exact hopen.append hclose
    · obtain ⟨inside, hinside, heq⟩ := compact_object hne fun m hm => ih m hm (hmembers m hm)
      rw [heq]
      exact (hopen.append hinside).append hclose

end TraceJournal.Json
