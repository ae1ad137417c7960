import TraceJournal.Decimal.Layout
import TraceJournal.Log.Error
import TraceJournal.Shape.Error

/-!
# Failures with context

What went wrong, and what was being done at the time. Each layer adds a line of context in front
of those below it; the first line is what a user sees first.
-/
namespace TraceJournal

inductive Cause where
  | io (error : IoError)
  | log (error : LogError)
  | json (fault : ReadFault)
  | cbor (fault : ReadFault)
  | toml (fault : ReadFault)
  | decode (error : DecodeError)
  | refused (text : String)

/-- What the cause says of itself; a text that is not well formed says nothing. -/
def Cause.text? : Cause → Option String
  | io error => some error.message
  | log error => some error.message
  | json (.shape error) => some (error.message Decimal.compact)
  | cbor (.shape error) | toml (.shape error) => some (error.message Decimal.pointed)
  | json _ | cbor _ | toml _ => none
  | decode error => some error.message
  | refused text => some text

/-- A cause, and the lines of context around it, outermost first. -/
structure Failure where
  context : List String
  cause : Cause

namespace Failure

def of (cause : Cause) : Failure := ⟨[], cause⟩

def within (line : String) (f : Failure) : Failure := ⟨line :: f.context, f.cause⟩

def lines (f : Failure) : List String := f.context ++ f.cause.text?.toList

def message (f : Failure) : String := ": ".intercalate f.lines

def headline (f : Failure) : String := f.lines.headD ""

/-- All lines as a report, the causes below the outermost line. -/
def report (f : Failure) : String :=
  match f.lines with
  | [] => "Error: "
  | [line] => s!"Error: {line}\n"
  | [line, cause] => s!"Error: {line}\n\nCaused by:\n    {cause}\n"
  | line :: causes =>
    s!"Error: {line}\n\nCaused by:\n" ++
      String.join (causes.mapIdx fun n cause => s!"    {n}: {cause}\n")

end Failure

def doing {α : Type} (line : String) (result : Except Failure α) : Except Failure α :=
  result.mapError (Failure.within line)

/-- A result of a layer below, with its cause alone. -/
def caused {ε α : Type} (cause : ε → Cause) (result : Except ε α) : Except Failure α :=
  result.mapError fun e => ⟨[], cause e⟩

/-- A result of a layer below, with its cause and a line of context. -/
def during {ε α : Type} (cause : ε → Cause) (line : String) (result : Except ε α) :
    Except Failure α :=
  result.mapError fun e => ⟨[line], cause e⟩

end TraceJournal
