import TraceJournal.Proofs.Script.File
import TraceJournal.Proofs.Script.Numbering
import Mathlib.Data.List.Forall2

/-!
# Reading one line after the other

A text can be read as a stream, each call taking lines until one of them gives an item. The calls come to
an end, and what they give is one item for every line that is not blank, made from that line alone. A
script is made of the items if all of them are messages.
-/
namespace TraceJournal

namespace Script

variable {text : List UInt8} {s : Script} {f : Failure}

/-- A script is read from lines exactly if each of their items is a message. -/
theorem ofBytes_lines_eq_ok_iff : ofBytes .lines text = .ok s ↔
    ∃ messages, MessageLines.read text = messages.map .ok ∧ s = ofMessages messages := by
  rw [ofBytes, ofLines]
  constructor
  · intro h
    rcases map_eq_ok_iff.1 h with ⟨messages, hall, rfl⟩
    rw [mapM_eq_ok_iff, List.map_id] at hall
    exact ⟨messages, hall, rfl⟩
  · rintro ⟨messages, hread, rfl⟩
    apply map_eq_ok
    rw [mapM_eq_ok_iff, List.map_id, hread]

theorem ofBytes_lines_eq_error_iff : ofBytes .lines text = .error f ↔
    ∃ (messages : List Message) (rest : List (Except Failure Message)),
      MessageLines.read text = messages.map .ok ++ .error f :: rest := by
  rw [ofBytes, ofLines, ← mapM_id_eq_error_iff]
  cases (MessageLines.read text).mapM id <;> simp [Functor.map, Except.map]

end Script

namespace MessageLines

/-- A place in a text: what has not been read yet, and how many lines have been counted. -/
structure LineReader where
  rest : List UInt8
  count : Nat

namespace LineReader

def start (text : List UInt8) : LineReader := ⟨text, 0⟩

/-- Takes lines up to the first one that gives an item; `none` if there is no such line. -/
def next? (reader : LineReader) : Option (Except Failure Message × LineReader) :=
  if h : reader.rest = [] then none
  else
    match readLine (reader.rest.takeWhile (· != 0x0A)) with
    | .notText =>
      some (.error ⟨[s!"read line {reader.count + 1}"], .io .invalidUtf8⟩,
        ⟨Text.behindLine reader.rest, reader.count⟩)
    | .blank =>
      have := Text.length_behindLine_lt h
      next? ⟨Text.behindLine reader.rest, reader.count + 1⟩
    | .message result =>
      some (during .json s!"parse jsonl line {reader.count + 1}" result,
        ⟨Text.behindLine reader.rest, reader.count + 1⟩)
termination_by reader.rest.length

/-- Calls give these items one after the other, and then nothing. -/
inductive Streams : LineReader → List (Except Failure Message) → Prop
  | ended {reader : LineReader} (h : reader.next? = none) : Streams reader []
  | item {reader after : LineReader} {item : Except Failure Message}
      {items : List (Except Failure Message)} (h : reader.next? = some (item, after))
      (hrest : Streams after items) : Streams reader (item :: items)

variable {reader other : LineReader} {items others : List (Except Failure Message)}

theorem Streams.of_next?_eq (h : reader.next? = other.next?) (hother : Streams other items) :
    Streams reader items := by
  cases hother with
  | ended hnone => exact .ended (h.trans hnone)
  | item hsome hrest => exact .item (h.trans hsome) hrest

theorem Streams.unique (h : Streams reader items) (h' : Streams reader others) : items = others := by
  induction h generalizing others with
  | ended hnone =>
    cases h' with
    | ended => rfl
    | item hsome => cases hnone.symm.trans hsome
  | item hsome _ ih =>
    cases h' with
    | ended hnone => cases hsome.symm.trans hnone
    | item hsome' hrest' =>
      cases hsome.symm.trans hsome'
      rw [ih hrest']

theorem streams_readFrom (text : List UInt8) (count : Nat) :
    Streams ⟨text, count⟩ (readFrom count (Text.lines text)) := by
  induction hn : text.length using Nat.strongRecOn generalizing text count with
  | ind n ih =>
    by_cases htext : text = []
    · subst htext
      exact .ended (by simp [next?])
    have hless := Text.length_behindLine_lt htext
    rw [hn] at hless
    have hrest (count : Nat) := ih _ hless (Text.behindLine text) count rfl
    rw [Text.lines_of_ne_nil htext, readFrom]
    cases hline : readLine (text.takeWhile (· != 0x0A)) with
    | notText =>
      apply Streams.item _ (hrest count)
      simp [next?, htext, hline]
    | blank =>
      -- Nothing comes of this line: the call gives what one behind it gives.
      apply Streams.of_next?_eq _ (hrest (count + 1))
      rw [next?]
      simp [htext, hline]
    | message result =>
      apply Streams.item _ (hrest (count + 1))
      simp [next?, htext, hline]

theorem streams_iff (text : List UInt8) : Streams (start text) items ↔ items = read text := by
  have hread : Streams (start text) (read text) := streams_readFrom text 0
  constructor
  · intro h
    exact h.unique hread
  · rintro rfl
    exact hread

end LineReader

/-- What an item says, without the number of its line. -/
def outcome (item : Except Failure Message) : Except Cause Message := item.mapError Failure.cause

def outcome? (line : List UInt8) : Option (Except Cause Message) :=
  match readLine line with
  | .notText => some (.error (.io .invalidUtf8))
  | .blank => none
  | .message result => some (result.mapError .json)

/-- Whether two items are the same but for the numbers of their lines. -/
inductive SameButNumber : Except Failure Message → Except Failure Message → Prop
  | message (m : Message) : SameButNumber (.ok m) (.ok m)
  | notText (number other : Nat) (cause : Cause) :
      SameButNumber (.error ⟨[s!"read line {number}"], cause⟩)
        (.error ⟨[s!"read line {other}"], cause⟩)
  | malformed (number other : Nat) (cause : Cause) :
      SameButNumber (.error ⟨[s!"parse jsonl line {number}"], cause⟩)
        (.error ⟨[s!"parse jsonl line {other}"], cause⟩)

variable {line text : List UInt8} {number other count : Nat}

theorem outcome?_eq_none_iff :
    outcome? line = none ↔ ∃ s, line = Text.utf8 s ∧ Text.isAllBlank s = true := by
  constructor
  · intro h
    rw [outcome?, readLine] at h
    cases hs : Text.ofUtf8? line with
    | none => simp [hs] at h
    | some s =>
      refine ⟨s, (Text.utf8_of_ofUtf8? hs).symm, ?_⟩
      by_contra hblank
      simp [hs, hblank] at h
  · rintro ⟨s, rfl, hblank⟩
    rw [outcome?, readLine_utf8 hblank]

theorem map_outcome_item? (number : Nat) (line : List UInt8) :
    (item? number line).map outcome = outcome? line := by
  rw [item?, outcome?]
  cases readLine line with
  | notText => rfl
  | blank => rfl
  | message result => cases result <;> rfl

theorem map_outcome_readFrom (count : Nat) (lines : List (List UInt8)) :
    (readFrom count lines).map outcome = lines.filterMap outcome? := by
  induction lines generalizing count with
  | nil => rfl
  | cons line lines ih =>
    rw [readFrom_cons, List.map_append, ih, List.filterMap_cons, ← map_outcome_item? (count + 1) line]
    cases item? (count + 1) line <;> rfl

theorem sameButNumber_item? (number other : Nat) (line : List UInt8) :
    List.Forall₂ SameButNumber (item? number line).toList (item? other line).toList := by
  rw [item?, item?]
  cases readLine line with
  | notText => exact .cons (.notText number other _) .nil
  | blank => exact .nil
  | message result =>
    cases result with
    | ok m => exact .cons (.message m) .nil
    | error fault => exact .cons (.malformed number other _) .nil

theorem sameButNumber_readFrom (count other : Nat) (lines : List (List UInt8)) :
    List.Forall₂ SameButNumber (readFrom count lines) (readFrom other lines) := by
  induction lines generalizing count other with
  | nil => exact .nil
  | cons line lines ih =>
    rw [readFrom_cons, readFrom_cons]
    exact List.rel_append (sameButNumber_item? _ _ line) (ih _ _)

theorem readFrom_append (count : Nat) (front lines : List (List UInt8)) :
    readFrom count (front ++ lines) =
      readFrom count front ++ readFrom (count + front.countP isText) lines := by
  induction front generalizing count with
  | nil => rfl
  | cons line front ih =>
    rw [List.cons_append, readFrom_cons, readFrom_cons, ih, List.countP_cons, List.append_assoc,
      Nat.add_assoc, Nat.add_comm (if isText line = true then 1 else 0)]

/-- Of two texts with a newline between them each gives its own items. -/
theorem read_append_newline (text more : List UInt8) :
    ∃ behind, read (text ++ [0x0A] ++ more) = read text ++ behind ∧
      List.Forall₂ SameButNumber behind (read more) := by
  have hfront : readFrom 0 (text.splitOn 0x0A) = read text := by
    rcases Text.splitOn_eq_lines text with hpieces | hpieces
    · rw [hpieces, read]
    · rw [hpieces, readFrom_append_nil, read]
  refine ⟨_, ?_, sameButNumber_readFrom (0 + (text.splitOn 0x0A).countP isText) 0 (Text.lines more)⟩
  rw [read, Text.lines_append_newline, readFrom_append, hfront]

open Script (load ofBytes)
open ScriptFormat (extension? ofExtension?)

/-- Reading a text as a stream ends, with one item for every line that is not blank, in order; lines are
the pieces between newlines, without an empty one at the end. What an item says depends on its own line
only, so that a text behind a newline gives the items that it gives alone, but for their numbers. A
script is read from the text exactly if every item is a message, and otherwise fails as the first item
that is none. -/
theorem read_line_by_line (text : List UInt8) :
    (∀ items, (LineReader.start text).Streams items ↔ items = read text) ∧
    Text.lines text = Text.withoutEmptyLast (text.splitOn 0x0A) ∧
    (read text).map outcome = (Text.lines text).filterMap outcome? ∧
    (∀ line, outcome? line = none ↔ ∃ s, line = Text.utf8 s ∧ Text.isAllBlank s = true) ∧
    (∀ more, ∃ behind, read (text ++ [0x0A] ++ more) = read text ++ behind ∧
      List.Forall₂ SameButNumber behind (read more)) ∧
    (∀ s, ofBytes .lines text = .ok s ↔
      ∃ messages, read text = messages.map .ok ∧ s = .ofMessages messages) ∧
    (∀ f, ofBytes .lines text = .error f ↔
      ∃ (messages : List Message) (rest : List (Except Failure Message)),
        read text = messages.map .ok ++ .error f :: rest) ∧
    ∀ path (fs : FileSystem) ext, extension? path = some ext → ofExtension? ext = some .lines →
      fs.fetch path = .ok text → load path fs = ofBytes .lines text := by
  refine ⟨fun _ => LineReader.streams_iff text, Text.lines_eq_splitOn text, map_outcome_readFrom 0 _,
    fun _ => outcome?_eq_none_iff, read_append_newline text, fun _ => Script.ofBytes_lines_eq_ok_iff,
    fun _ => Script.ofBytes_lines_eq_error_iff, fun path fs ext hext hformat hfetch => ?_⟩
  exact Script.load_of_fetch hext hformat hfetch

def brokenFirst : List UInt8 := [0xFF] ++ [0x0A] ++ write [.dumpTrace 1 7]

theorem extension?_brokenFirst : extension? "broken.jsonl" = some "jsonl" :=
  @Script.extension?_of_letters _ "jsonl" _ (by decide) (by decide)

/-- The message is read although the line before it is no text, but the file is no script. -/
theorem read_line_by_line_brokenFirst :
    (LineReader.start brokenFirst).Streams
      [.error ⟨["read line 1"], .io .invalidUtf8⟩, .ok (.dumpTrace 1 7)] ∧
    ∃ fs : FileSystem, fs.fetch "broken.jsonl" = .ok brokenFirst ∧
      load "broken.jsonl" fs = .error ⟨["read line 1"], .io .invalidUtf8⟩ := by
  have hbroken : isText [0xFF] = false := by decide +kernel
  have hread : read brokenFirst =
      [.error ⟨["read line 1"], .io .invalidUtf8⟩, .ok (.dumpTrace 1 7)] := by
    rw [read, brokenFirst, Text.lines_append (by decide), lines_write, readFrom_cons, hbroken, item?,
      readLine_eq_notText_iff.2 hbroken, readFrom_restyled (.refl _)]
    rfl
  have hwritable : FileSystem.empty.Writable "broken.jsonl" :=
    ⟨by decide, by decide, ⟨["home"], "broken.jsonl", by decide⟩, by decide⟩
  rcases hwritable.put brokenFirst with ⟨fs, hput⟩
  have hfetch := FileSystem.fetch_of_put hput
  rcases read_line_by_line brokenFirst with ⟨hstreams, -, -, -, -, -, herror, hload⟩
  refine ⟨(hstreams _).2 hread.symm, fs, hfetch, ?_⟩
  rw [hload _ _ _ extension?_brokenFirst rfl hfetch]
  exact (herror _).2 ⟨[], [.ok (.dumpTrace 1 7)], hread⟩

end MessageLines

end TraceJournal
