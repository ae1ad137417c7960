import TraceJournal.CommandLine.Run

/-!
# The program

The command runs on a disk of its own. What the command line names is brought there first, and
what the command has changed is brought back.
-/
namespace TraceJournal.Program

open CommandLine

def pathTo (place : List String) : String := "/" ++ "/".intercalate place

/-- What is at a path: nothing, a directory, which can be opened but not read, or a file with its
content. -/
def probe (path : String) : IO (Option (Option (List UInt8))) := do
  match ← (IO.FS.Handle.mk path .read).toBaseIO with
  | .error _ => return none
  | .ok handle =>
    match ← handle.readBinToEnd.toBaseIO with
    | .error _ => return some none
    | .ok bytes => return some (some bytes.toList)

/-- Brings what is at a path to the disk, with the directories on the way. -/
def bring (path : String) (disk : FileSystem) : IO FileSystem := do
  let p := Path.ofString path
  let parts := if p.absolute then p.parts else disk.home ++ p.parts
  let mut disk := disk
  for n in List.range parts.length do
    let here := pathTo (parts.take (n + 1))
    match ← probe here with
    | none => return disk
    | some none => disk := ((disk.createDirectory (Path.ofString here)).toOption).getD disk
    | some (some bytes) => disk := ((disk.put here bytes).toOption).getD disk
  return disk

def restore (place : List String) (content : Option (List UInt8)) : IO Unit :=
  match content with
  | none => IO.FS.createDirAll (pathTo place)
  | some bytes => IO.FS.writeBinFile (pathTo place) ⟨bytes.toArray⟩

def configuredLog (invocation : Invocation) (disk : FileSystem) : List String :=
  match invocation with
  | .run { config := some path, .. } =>
    match Config.load path disk with
    | .ok { fileName := some log, .. } => [log]
    | _ => []
  | _ => []

def start (arguments : List String) : IO FileSystem := do
  let home := (Path.ofString (← IO.currentDir).toString).parts
  let mut disk : FileSystem := { FileSystem.empty with home }
  match Invocation.read? arguments with
  | none => return disk
  | some invocation =>
    for path in invocation.paths do
      disk ← bring path disk
    for path in configuredLog invocation disk do
      disk ← bring path disk
    return disk

end TraceJournal.Program

open TraceJournal in
def main (arguments : List String) : IO UInt32 := do
  let before ← Program.start arguments
  let outcome := CommandLine.run arguments before
  let old := before.places
  for (place, content) in outcome.disk.places do
    if old.lookup place != some content then Program.restore place content
  (← IO.getStdout).write ⟨outcome.output.toArray⟩
  match outcome.status with
  | .success => pure ()
  | .failed failure => IO.eprint failure.report
  | .misused => IO.eprint CommandLine.usage
  return outcome.status.code.toUInt32
