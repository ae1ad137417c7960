import TraceJournal.Proofs.Json.Printed
import TraceJournal.Proofs.Json.Messages
import TraceJournal.Script.Lines

/-!
# Messages that come back line by line

Each line is the whole text of its message, so that what stands around the lines does not matter:
neither carriage returns at their ends nor white space between them.
-/
namespace TraceJournal

theorem Message.compact_eq (m : Message) : ∃ inside, Text.Printed inside ∧
    Json.compact m.toValue = [0x7B] ++ inside ++ [0x7D] := by
  have hplain := m.all_isPlain_toValue
  rw [m.toValue_eq, Value.all_object_iff] at hplain
  rw [m.toValue_eq]
  exact Json.compact_object (by simp) fun field hfield => Json.printed_compact (hplain.2 field hfield)

namespace MessageLines

open Text (Restyles IsRestyled)

theorem readLine_compact (m : Message) (returns : Nat) :
    readLine (Json.compact m.toValue ++ List.replicate returns 0x0D) = .message (.ok m) := by
  obtain ⟨inside, hinside, hcompact⟩ := m.compact_eq
  have hclose : Text.Printed [0x7D] := .ascii (by decide)
  obtain ⟨s, hs⟩ := (hinside.append hclose).isText
  have hreturns : Text.utf8 (String.ofList (List.replicate returns '\r')) =
      List.replicate returns 0x0D := by
    have hreturn : String.utf8EncodeChar '\r' = [0x0D] := by decide
    simp [Text.utf8_eq_flatMap, List.flatMap_replicate, hreturn]
  have htext : Json.compact m.toValue ++ List.replicate returns 0x0D =
      Text.utf8 ("\x7b" ++ (s ++ String.ofList (List.replicate returns '\r'))) := by
    rw [hcompact, List.append_assoc [0x7B], hs, Text.utf8_append, Text.utf8_append, hreturns,
      List.append_assoc]
    rfl
  have hblank : Text.isAllBlank
      ("\x7b" ++ (s ++ String.ofList (List.replicate returns '\r'))) = false := by
    have hbracket : Text.isBlank '\x7b' = false := by decide
    simp [Text.isAllBlank, hbracket]
  have hstrip : Text.stripReturns (Json.compact m.toValue ++ List.replicate returns 0x0D) =
      Json.compact m.toValue := by
    rw [hcompact]
    exact Text.stripReturns_append (by decide) returns
  have hread : Json.read Json.Node.message (Json.compact m.toValue) = .ok m :=
    Json.read_write m.all_isPlain_toValue (Json.Node.message_toValue 125 m) .compact
  rw [readLine, hstrip, htext, Text.ofUtf8?_utf8]
  simp [hblank, hread]

theorem readLine_utf8 {text : String} (h : Text.isAllBlank text = true) :
    readLine (Text.utf8 text) = .blank := by
  simp [readLine, Text.ofUtf8?_utf8, h]

def written (messages : List Message) : List (List UInt8) :=
  messages.map fun m => Json.compact m.toValue

theorem write_eq (messages : List Message) : write messages = Text.ended (written messages) := by
  rw [write, Text.ended, written, List.flatMap_map]

theorem newline_notMem_written (messages : List Message) :
    ∀ line ∈ written messages, 0x0A ∉ line :=
  List.forall_mem_map.2 fun m _ => (Json.printed_compact m.all_isPlain_toValue).newline_notMem

theorem readFrom_restyled {messages : List Message} {restyled : List (List UInt8)}
    (h : Restyles (written messages) restyled) (count : Nat) :
    readFrom count restyled = messages.map .ok := by
  generalize hlines : written messages = lines at h
  induction h generalizing messages count with
  | nil =>
    rw [List.map_eq_nil_iff.1 hlines]
    rfl
  | line line returns _ ih =>
    obtain ⟨m, messages, rfl, rfl, hrest⟩ := List.map_eq_cons_iff.1 hlines
    rw [readFrom, readLine_compact]
    exact congrArg (.ok m :: ·) (ih (count + 1) hrest)
  | blank text hblank _ _ ih =>
    rw [readFrom, readLine_utf8 hblank]
    exact ih (count + 1) hlines

theorem readFrom_append_nil (count : Nat) (lines : List (List UInt8)) :
    readFrom count (lines ++ [[]]) = readFrom count lines := by
  have hempty : readLine [] = .blank := @readLine_utf8 "" rfl
  fun_induction readFrom count lines with
  | case1 => simp [readFrom, hempty]
  | case2 count line lines hline ih => simp [readFrom, hline, ih]
  | case3 count line lines hline ih => simp [readFrom, hline, ih]
  | case4 count line lines result hline ih => simp [readFrom, hline, ih]

theorem lines_write (messages : List Message) : Text.lines (write messages) = written messages := by
  rw [write_eq, Text.lines_ended (newline_notMem_written messages)]

theorem read_write (messages : List Message) : read (write messages) = messages.map .ok := by
  rw [read, lines_write]
  exact readFrom_restyled (.refl _) 0

/-- Messages come back in order, each of them whole, whatever the style of their lines. -/
theorem read_restyled (messages : List Message) :
    read (write messages) = messages.map .ok ∧
      ∀ text, IsRestyled (write messages) text → read text = messages.map .ok := by
  refine ⟨read_write messages, fun text htext => ?_⟩
  obtain ⟨restyled, hrestyles, hsame⟩ := htext.lines
  rw [lines_write] at hrestyles
  rw [← readFrom_restyled hrestyles 0, read]
  rcases hsame with rfl | rfl
  · rfl
  · rw [readFrom_append_nil]

/-- A blank line before the message, two carriage returns after it, and no newline at the end. -/
theorem read_restyled_dumpTrace :
    IsRestyled (write [.dumpTrace 1 7]) (Text.utf8 "\u00A0\t" ++ [0x0A] ++
      (Json.compact (Message.dumpTrace 1 7).toValue ++ [0x0D, 0x0D])) ∧
    read (Text.utf8 "\u00A0\t" ++ [0x0A] ++
      (Json.compact (Message.dumpTrace 1 7).toValue ++ [0x0D, 0x0D])) = [.ok (.dumpTrace 1 7)] := by
  have hrestyled : IsRestyled (write [.dumpTrace 1 7]) (Text.utf8 "\u00A0\t" ++ [0x0A] ++
      (Json.compact (Message.dumpTrace 1 7).toValue ++ [0x0D, 0x0D])) :=
    ⟨_, _, newline_notMem_written _, write_eq _,
      .blank "\u00A0\t" (by decide) (by decide) (.line _ 2 .nil), .inr rfl⟩
  exact ⟨hrestyled, (read_restyled [.dumpTrace 1 7]).2 _ hrestyled⟩

end MessageLines

end TraceJournal
