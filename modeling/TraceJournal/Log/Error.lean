import TraceJournal.Record.Wire
import TraceJournal.Storage.Basic

/-!
# Failures of a log

Everything that a log refuses: a bad configuration, a record that cannot be encoded, or a
medium that failed. A log that is full refuses nothing; it drops records.
-/
namespace TraceJournal

/-- The longest name, in bytes, that a log file may have. -/
def maxNameLength : Nat := 255

inductive LogError where
  | nameTooLong (length : Nat)
  | missingName
  | alreadyOpen (path : String)
  | payloadTooLarge (length : Nat)
  | openFailed (path : String) (source : IoError)
  | writeFailed (path : String) (source : IoError)
deriving DecidableEq, Repr

namespace LogError

def label : LogError → String
  | nameTooLong _ => "name_too_long"
  | missingName => "missing_name"
  | alreadyOpen _ => "already_open"
  | payloadTooLarge _ => "payload_too_large"
  | openFailed _ _ => "open_failed"
  | writeFailed _ _ => "write_failed"

def message : LogError → String
  | nameTooLong length => s!"log file name is {length} bytes (max {maxNameLength})"
  | missingName => "log file name is empty"
  | alreadyOpen path => s!"log file {path} is open; close it before reconfiguring"
  | payloadTooLarge length => s!"trace payload is {length} bytes (max {maxPayload})"
  | openFailed path _ => s!"open trace log {path}"
  | writeFailed path _ => s!"write trace log {path}"

def source? : LogError → Option IoError
  | openFailed _ source | writeFailed _ source => some source
  | _ => none

end LogError

end TraceJournal
