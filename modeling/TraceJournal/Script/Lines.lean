import TraceJournal.Failure
import TraceJournal.Json.Message
import TraceJournal.Json.Printer
import TraceJournal.Text.Blank
import TraceJournal.Text.Lines

/-!
# Messages line by line

Messages as JSON, one on each line. Every line is read on its own, so that a bad one does not
keep the others from being read. Lines of white space are skipped.
-/
namespace TraceJournal.MessageLines

/-- A line of messages: not text, nothing, or a message. -/
inductive Line where
  | notText
  | blank
  | message (result : Except ReadFault Message)

/-- Reads one line. Carriage returns at its end do not belong to it. -/
def readLine (line : List UInt8) : Line :=
  match Text.ofUtf8? line with
  | none => .notText
  | some text =>
    if Text.isAllBlank text then .blank
    else .message (Json.read Json.Node.message (Text.stripReturns line))

/-- Reads lines after `count` of them. A line that is no text is not counted; its number is the
one that it would have. -/
def readFrom (count : Nat) : List (List UInt8) → List (Except Failure Message)
  | [] => []
  | line :: lines =>
    match readLine line with
    | .notText =>
      .error ⟨[s!"read line {count + 1}"], .io .invalidUtf8⟩ :: readFrom count lines
    | .blank => readFrom (count + 1) lines
    | .message result =>
      during .json s!"parse jsonl line {count + 1}" result :: readFrom (count + 1) lines

/-- The messages of a text, or what is wrong with each bad line. -/
def read (text : List UInt8) : List (Except Failure Message) := readFrom 0 (Text.lines text)

/-- One message on each line. -/
def write (messages : List Message) : List UInt8 :=
  messages.flatMap fun m => Json.compact m.toValue ++ [0x0A]

end TraceJournal.MessageLines
