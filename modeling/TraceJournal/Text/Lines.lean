/-!
# Lines

Bytes as lines. A line ends at a newline, which does not belong to it; an empty piece after the
last newline is no line.
-/
namespace TraceJournal.Text

/-- The lines of the bytes, given what has been read of the current line, newest first, and the
lines before it, newest first. -/
def splitLines (line : List UInt8) (done : List (List UInt8)) : List UInt8 → List (List UInt8)
  | [] => (if line.isEmpty then done else line.reverse :: done).reverse
  | b :: rest =>
    if b = 0x0A then splitLines [] (line.reverse :: done) rest
    else splitLines (b :: line) done rest

def lines (bytes : List UInt8) : List (List UInt8) := splitLines [] [] bytes

/-- A line without the carriage returns at its end. -/
def stripReturns (line : List UInt8) : List UInt8 :=
  (line.reverse.dropWhile (· == 0x0D)).reverse

end TraceJournal.Text
