import TraceJournal.Log.Logger
import TraceJournal.Storage.Path
import TraceJournal.Text.Number

/-!
# Snapshots

An exporter that copies the log file into a directory, under a number that counts the copies
made. It does nothing while the log is not open, so it never copies a file that this log has
not written.
-/
namespace TraceJournal

structure Snapshots where
  directory : String
  next : UInt32
deriving DecidableEq, Repr

namespace Snapshots

def into (directory : String) : Snapshots := ⟨directory, 0⟩

def target (s : Snapshots) : String :=
  Path.join s.directory s!"trace-dp-{Text.padded 4 s.next.toNat}.bin"

variable {σ : Type} [Directories σ]

/-- Copies the log file if it is open. A failed copy does not use up a number. -/
def deliver (request : ExportRequest) (s : Snapshots) (medium : σ) :
    Except IoError Unit × Snapshots × σ :=
  match request.path, request.mode with
  | some source, .opened =>
    match Directories.ensureDirectory s.directory medium with
    | (.error e, medium) => (.error e, s, medium)
    | (.ok (), medium) =>
      match Directories.copyFile source s.target medium with
      | (.error e, medium) => (.error e, s, medium)
      | (.ok (), medium) => (.ok (), { s with next := s.next + 1 }, medium)
  | _, _ => (.ok (), s, medium)

instance : Exporter Snapshots σ := ⟨deliver⟩

end Snapshots

end TraceJournal
