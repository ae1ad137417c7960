import TraceJournal.Failure
import TraceJournal.Storage.FileSystem

/-!
# Sessions

A job works on a disk and prints text. What it has done before it fails stays done. The
outcome of a run tells how it ended and what is left.
-/
namespace TraceJournal.CommandLine

structure Session where
  disk : FileSystem
  output : List UInt8

abbrev Job := ExceptT Failure (StateM Session)

inductive Status where
  | success
  | failed (failure : Failure)
  | misused

def Status.code : Status → UInt8
  | success => 0
  | failed _ => 1
  | misused => 2

structure Outcome where
  status : Status
  output : List UInt8
  disk : FileSystem

namespace Job

def print (bytes : List UInt8) : Job Unit :=
  modify fun s => { s with output := s.output ++ bytes }

def ask {α : Type} (question : FileSystem → Except Failure α) : Job α := do
  liftExcept (question (← get).disk)

def change (step : FileSystem → Except Failure FileSystem) : Job Unit := do
  let disk ← ask step
  modify fun s => { s with disk }

/-- Creates the directory that a file is to lie in. -/
def prepareParent (path : String) : Job Unit := do
  let dir := (Path.parentText? path).getD ""
  if dir.isEmpty then return ()
  else
    let (result, disk) := (← get).disk.ensureDirectory dir
    modify fun s => { s with disk }
    liftExcept (during .io s!"creating parent directory {dir}" result)

def outcome (job : Job Unit) (disk : FileSystem) : Outcome :=
  match job.run.run ⟨disk, []⟩ with
  | (.ok (), session) => ⟨.success, session.output, session.disk⟩
  | (.error failure, session) => ⟨.failed failure, session.output, session.disk⟩

end Job

end TraceJournal.CommandLine
