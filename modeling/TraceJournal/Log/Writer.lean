import TraceJournal.Log.Error
import TraceJournal.Text.Quoted

/-!
# The log writer

A writer appends encoded records to one file of a medium, up to a budget of bytes. It opens
its file at the first record that reaches it, refuses every record from the first one on that
does not fit, and stops using a file once the medium has failed. A failure is returned by the
call that met it and latched; later records are only told that the file is unavailable.
-/
namespace TraceJournal

def defaultMaxSize : UInt32 := 2048

inductive Mode where
  | closed | opened
deriving DecidableEq, Repr, Inhabited

namespace Mode

def name : Mode → String
  | closed => "closed"
  | opened => "open"

def title : Mode → String
  | closed => "Closed"
  | opened => "Open"

end Mode

/-- A failure that makes the current file unusable until the next configuration. -/
inductive Fault where
  | openFailed | writeFailed
deriving DecidableEq, Repr, Inhabited

namespace Fault

def name : Fault → String
  | openFailed => "open_failed"
  | writeFailed => "write_failed"

def title : Fault → String
  | openFailed => "OpenFailed"
  | writeFailed => "WriteFailed"

end Fault

inductive Disposition where
  | written (bytes : Nat)
  | disabled
  | unconfigured
  | unavailable
  | capReached
deriving DecidableEq, Repr, Inhabited

namespace Disposition

def isWritten : Disposition → Bool
  | written _ => true
  | _ => false

end Disposition

/-- A writer together with its medium `σ`. The file is the handle of the open log, if there is
one; `byteCount` counts what has been appended since that file was created. -/
structure Writer (σ η : Type) where
  medium : σ
  file : Option η
  fileName : Option String
  maxSize : UInt32
  byteCount : UInt32
  enabled : Bool
  full : Bool
  fault : Option Fault

namespace Writer

variable {σ η : Type}

def new (medium : σ) : Writer σ η :=
  ⟨medium, none, none, defaultMaxSize, 0, true, false, none⟩

def mode (w : Writer σ η) : Mode := if w.file.isSome then .opened else .closed

/-- Chooses the file and its budget without touching the medium. An open file has to be closed
first; a name that cannot be used leaves the writer without one. -/
def setLogFile (name : String) (maxSize : UInt32) (w : Writer σ η) :
    Except LogError Unit × Writer σ η :=
  match w.file, w.fileName with
  | some _, some path => (.error (.alreadyOpen path), w)
  | _, _ =>
    let length := name.utf8ByteSize
    if length = 0 then (.error .missingName, { w with fileName := none })
    else if maxNameLength < length then (.error (.nameTooLong length), { w with fileName := none })
    else
      (.ok (), { w with
        fileName := some name, maxSize := maxSize, byteCount := 0, full := false, fault := none })

def configure (name : String) (w : Writer σ η) : Except LogError Unit × Writer σ η :=
  w.setLogFile name defaultMaxSize

def setEnabled (enabled : Bool) (w : Writer σ η) : Writer σ η := { w with enabled }

/-- Whether `n` further bytes stay within the budget, computed in 64-bit words. -/
def fits (w : Writer σ η) (n : Nat) : Bool :=
  w.byteCount.toUInt64 + UInt64.ofNat n ≤ w.maxSize.toUInt64

/-- The length of a slice as a 32-bit word, or the largest word if it has none. -/
def clampedLength (n : Nat) : UInt32 :=
  if n < UInt32.size then UInt32.ofNat n else UInt32.ofNat (UInt32.size - 1)

variable [Storage σ η]

/-- Creates the file at `path` unless one is open. A failure is latched. -/
def ensureOpen (path : String) (w : Writer σ η) : Except LogError Unit × Writer σ η :=
  match w.file with
  | some _ => (.ok (), w)
  | none =>
    match Storage.create path w.medium with
    | (.ok file, medium) =>
      (.ok (), { w with medium := medium, file := some file, byteCount := 0, full := false })
    | (.error source, medium) =>
      (.error (.openFailed path source), { w with medium := medium, fault := some .openFailed })

/-- Appends bytes to the open file at `path` if they fit. A record that does not fit makes the
file full for good; a failed write is latched and not counted. -/
def append (path : String) (bytes : List UInt8) (w : Writer σ η) :
    Except LogError Disposition × Writer σ η :=
  if w.full || !w.fits bytes.length then (.ok .capReached, { w with full := true })
  else
    match w.file with
    | none => (.ok .unavailable, w)
    | some file =>
      match Storage.writeAll file bytes w.medium with
      | (.ok (), medium) =>
        (.ok (.written bytes.length), { w with
          medium := medium, byteCount := w.byteCount + clampedLength bytes.length })
      | (.error source, medium) =>
        (.error (.writeFailed path source),
          { w with medium := medium, fault := some .writeFailed })

/-- Takes one encoded record: it is dropped if the gate is off, if there is no file name or if
the file has failed before; else the file is opened if need be, and the record appended. -/
def write (bytes : List UInt8) (w : Writer σ η) : Except LogError Disposition × Writer σ η :=
  if !w.enabled then (.ok .disabled, w)
  else
    match w.fileName with
    | none => (.ok .unconfigured, w)
    | some path =>
      if w.fault.isSome then (.ok .unavailable, w)
      else
        match w.ensureOpen path with
        | (.error e, w) => (.error e, w)
        | (.ok (), w) => w.append path bytes

/-- Flushes and releases the open file, and forgets its name with it. Latches stay. -/
def close (w : Writer σ η) : Except LogError Unit × Writer σ η :=
  match w.file with
  | none => (.ok (), w)
  | some file =>
    let path := w.fileName.getD ""
    match Storage.flush file w.medium with
    | (.ok (), medium) => (.ok (), { w with medium := medium, file := none, fileName := none })
    | (.error source, medium) =>
      (.error (.writeFailed path source),
        { w with medium := medium, file := none, fileName := none })

omit [Storage σ η] in
def dump (w : Writer σ η) : String :=
  let name := match w.fileName with
    | none => "None"
    | some name => "Some(" ++ Text.quoted name ++ ")"
  let fault := match w.fault with
    | none => "None"
    | some fault => "Some(" ++ fault.title ++ ")"
  "TraceFileWriter \x7b mode: " ++ w.mode.title ++ ", file_name: " ++ name ++
    s!", max_size: {w.maxSize}, byte_count: {w.byteCount}, enabled: {w.enabled}" ++
    s!", full: {w.full}, fault: " ++ fault ++ ", .. \x7d"

end Writer

end TraceJournal
