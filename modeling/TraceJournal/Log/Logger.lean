import TraceJournal.Log.Writer
import TraceJournal.Record.Encoder

/-!
# The trace logger

A logger encodes trace events, hands them to its writer, and asks an exporter, if it has one,
to turn the log into a data product. The gate is checked before a record is encoded, so a
record that cannot be encoded is an error only while tracing is enabled.
-/
namespace TraceJournal

/-- What an exporter is told about the log. -/
structure ExportRequest where
  path : Option String
  byteCount : UInt32
  mode : Mode
deriving DecidableEq, Repr

/-- An exporter `ξ` beside a medium `σ`: it may read and write the medium that the log is on. -/
class Exporter (ξ σ : Type) where
  deliver : ExportRequest → ξ → σ → Except IoError Unit × ξ × σ

inductive Response where
  | ok | validationError | executionError
deriving DecidableEq, Repr, Inhabited

namespace Response

def all : List Response := [ok, validationError, executionError]

def name : Response → String
  | ok => "ok"
  | validationError => "validation_error"
  | executionError => "execution_error"

end Response

structure Logger (σ η ξ : Type) where
  encoder : Encoder
  writer : Writer σ η
  exporter : Option ξ

namespace Logger

variable {σ η ξ : Type}

def new (medium : σ) : Logger σ η ξ := ⟨.fresh, .new medium, none⟩

def setExporter (exporter : Option ξ) (l : Logger σ η ξ) : Logger σ η ξ := { l with exporter }

def setEnabled (enabled : Bool) (l : Logger σ η ξ) : Logger σ η ξ :=
  { l with writer := l.writer.setEnabled enabled }

def setLogFile (name : String) (maxSize : UInt32) (l : Logger σ η ξ) :
    Except LogError Unit × Logger σ η ξ :=
  let (result, writer) := l.writer.setLogFile name maxSize
  (result, { l with writer })

def configure (name : String) (l : Logger σ η ξ) : Except LogError Unit × Logger σ η ξ :=
  l.setLogFile name defaultMaxSize

def enableTrace (enable : Bool) (l : Logger σ η ξ) : Response × Logger σ η ξ :=
  (.ok, l.setEnabled enable)

def exportRequest (l : Logger σ η ξ) : ExportRequest :=
  ⟨l.writer.fileName, l.writer.byteCount, l.writer.mode⟩

/-- Asks the exporter for a data product; without one there is nothing to do. -/
def dumpTrace [Exporter ξ σ] (l : Logger σ η ξ) : Response × Logger σ η ξ :=
  match l.exporter with
  | none => (.ok, l)
  | some exporter =>
    let (result, exporter, medium) := Exporter.deliver l.exportRequest exporter l.writer.medium
    let l := { l with
      exporter := some exporter, writer := { l.writer with medium := medium } }
    match result with
    | .ok () => (.ok, l)
    | .error _ => (.executionError, l)

variable [Storage σ η]

/-- Encodes one trace event and hands it to the writer. -/
def log (r : Record) (l : Logger σ η ξ) : Except LogError Disposition × Logger σ η ξ :=
  if !l.writer.enabled then (.ok .disabled, l)
  else
    match Encoder.encode r l.encoder with
    | (.error e, encoder) => (.error e, { l with encoder })
    | (.ok bytes, encoder) =>
      let (result, writer) := l.writer.write bytes
      (result, { l with encoder, writer })

def closeFile (l : Logger σ η ξ) : Except LogError Unit × Logger σ η ξ :=
  let (result, writer) := l.writer.close
  (result, { l with writer })

omit [Storage σ η] in
def dump (l : Logger σ η ξ) : String :=
  "TraceLogger \x7b writer: " ++ l.writer.dump ++
    s!", exporter: {l.exporter.isSome}, .. \x7d"

end Logger

end TraceJournal
