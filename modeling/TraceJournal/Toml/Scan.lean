/-!
# Scanning TOML text

A scan reads from the front of a text and leaves the rest, or fails. Every alternative starts
over where it began. Between the parts of a document stand blanks, newlines and comments.
-/
namespace TraceJournal.Toml

/-- Reads from the front of a text. -/
abbrev Scan := StateT (List Char) Option

namespace Scan

def peek? : Scan (Option Char) := return (← get).head?

/-- Whether the text goes on with these characters, which stay. -/
def at? (word : List Char) : Scan Bool := return word.isPrefixOf (← get)

def satisfy (p : Char → Bool) : Scan Char := fun cs =>
  match cs with
  | c :: rest => if p c then some (c, rest) else none
  | [] => none

def char (c : Char) : Scan Unit := do
  let _ ← satisfy (· == c)

def word (text : List Char) : Scan Unit := text.forM char

/-- Reads all characters up to the first without a property. -/
def run (p : Char → Bool) : Scan (List Char) := fun cs => some (cs.takeWhile p, cs.dropWhile p)

/-- Repeats a step until it yields nothing, at most once for each character of `bound`. -/
def repeatWithin {α : Type} (step : Scan (Option α)) (bound : List Char) (done : List α) :
    Scan (List α) := do
  match ← step, bound with
  | none, _ => return done.reverse
  | some _, [] => failure
  | some a, _ :: bound => repeatWithin step bound (a :: done)

/-- Repeats a step until it yields nothing. Each other time it has to read something. -/
def many {α : Type} (step : Scan (Option α)) : Scan (List α) := do
  repeatWithin step (← get) []

/-! ## Between the parts -/

def isBlank (c : Char) : Bool := c == ' ' || c == '\t'

/-- Characters that a comment may hold, and a text that is taken as it is. -/
def isPrintable (c : Char) : Bool := c == '\t' || ('\x20' ≤ c && c != '\x7F')

def blanks : Scan Unit := do
  let _ ← run isBlank

def newline : Scan Unit := char '\n' <|> word ['\r', '\n']

def comment : Scan Unit := do
  char '#'
  let _ ← run isPrintable

def ending : Scan Unit := do
  if (← get).isEmpty then return () else failure

/-- What may follow an expression on its line, and the end of that line. -/
def lineEnd : Scan Unit := do
  blanks
  let _ ← optional comment
  newline <|> ending

def gap : Scan Unit := do
  let _ ← many (optional (comment <|> newline <|> do let _ ← satisfy isBlank))

end Scan

end TraceJournal.Toml
