import TraceJournal.CommandLine.Invocation
import TraceJournal.CommandLine.Session
import TraceJournal.Json.Printer
import TraceJournal.Log.Snapshot
import TraceJournal.Message.Drain
import TraceJournal.Script.File

/-!
# Running a command

Each command as a job, and the run of a whole command line: its output, its exit status and
what it leaves on the disk. Nothing is written before all that the command reads has been read.
-/
namespace TraceJournal.CommandLine

def banner : String := "tracelog-cli 0.1.0"

def usage : String :=
  "tracelog-cli simulate | run | decode, with the flags of the command\n"

def simulate (params : TrafficParams) (out : String) : Job Unit := do
  if !(0 ≤ params.commandRate && params.commandRate ≤ 1) then
    let rate := Decimal.plain params.commandRate
    throw (.of (.refused s!"command rate ({rate}) must lie in [0, 1]"))
  let script := Traffic.script params
  Job.prepareParent out
  Job.change fun disk => doing s!"writing script to {out}" (script.save out disk)
  Job.print <| Text.utf8 <|
    s!"Simulated script: {params.events} events, {script.messages.length} messages → {out}\n"

def replay (r : Replay) : Job Unit := do
  let given ← match r.config with
    | some path => Job.ask (Config.load path)
    | none => pure Config.initial
  let config := r.adjust given
  match config.fileName with
  | none =>
    throw (.of (.refused "no log file configured (use --log-file or file_name in --config)"))
  | some log =>
    let fresh : Logger FileSystem Nat Snapshots := Logger.new (← get).disk
    let (configured, logger) := config.apply (fresh.setExporter (r.snapshots.map Snapshots.into))
    liftExcept (during .log s!"configuring trace log {log}" configured)
    let script ← Job.ask fun disk => doing s!"reading script {r.script}" (Script.load r.script disk)
    let (summary, logger) := logger.drain script.messages
    let (closed, logger) := logger.closeFile
    modify fun s => { s with disk := logger.writer.medium }
    liftExcept (during .log "closing trace log" closed)
    match r.summary with
    | none => pure ()
    | some out =>
      Job.prepareParent out
      Job.change fun disk =>
        during .io s!"create {out}" (disk.put out (Json.pretty summary.toValue))
    Job.print <| Text.utf8 <|
      s!"Replayed {r.script} → {log}: {summary.written} written " ++
      s!"({summary.bytesWritten} bytes of {config.maxSize}), {summary.capReached} capped, " ++
      s!"{summary.disabled} disabled, {summary.unavailable} unavailable, " ++
      s!"{summary.errors} errors, {summary.commands.length} commands\n"

def recordLines (records : List Record) : List UInt8 :=
  records.flatMap fun r => Json.compact r.toValue ++ [0x0A]

/-- The records before the first that cannot be decoded, and why it cannot. -/
def decodePrefix (bytes : List UInt8) : List Record × Option DecodeError :=
  let items := (RecordReader.start bytes).items
  (items.filterMap fun (item, _) => item.toOption,
    items.findSome? fun (item, _) =>
      match item with
      | .ok _ => none
      | .error e => some e)

/-- Writes the records of a log file as text, to another file or to the output. Those before
one that cannot be decoded are written. -/
def decode (log : String) (out : Option String) : Job Unit := do
  let bytes ← Job.ask fun disk => during .io s!"read {log}" (disk.fetch log)
  let (records, error) := decodePrefix bytes
  match out with
  | none => Job.print (recordLines records)
  | some path =>
    Job.prepareParent path
    Job.change fun disk => during .io s!"create {path}" (disk.put path (recordLines records))
  match error, out with
  | some e, _ => throw ⟨[s!"decoding {log}"], .decode e⟩
  | none, some path =>
    Job.print (Text.utf8 s!"Decoded {records.length} records → {path}\n")
  | none, none => pure ()

def Invocation.job : Invocation → Job Unit
  | .version => Job.print (Text.utf8 (banner ++ "\n"))
  | .help => Job.print (Text.utf8 usage)
  | .simulate params out => CommandLine.simulate params out
  | .run r => replay r
  | .decode log out => CommandLine.decode log out

def run (arguments : List String) (disk : FileSystem) : Outcome :=
  match Invocation.read? arguments with
  | none => ⟨.misused, [], disk⟩
  | some invocation => Job.outcome invocation.job disk

end TraceJournal.CommandLine
