import TraceJournal.Bench.Profile
import TraceJournal.CommandLine.Run

/-!
# Benchmarks

A benchmark repeats a round: simulate traffic, replay it through a log on the disk, decode the
log. The report has a row for each stage of each round, with its counts. Two columns of it are
left out here, the time of the benchmark and how long a stage took.
-/
namespace TraceJournal.Bench

open CommandLine

/-- The argument after the first one that is this flag. -/
def flagValue (name usual : String) : List String → String
  | [] => usual
  | argument :: rest =>
    if argument = "--" ++ name then rest.headD usual else flagValue name usual rest

def readBool? : String → Option Bool
  | "true" => some true
  | "false" => some false
  | _ => none

def columns : List String := ["events", "max_payload", "max_size", "repeat", "stage", "extra"]

def row (cells : List String) : List UInt8 := Text.utf8 (",".intercalate cells ++ "\n")

def stageRow (p : Profile) (round : Nat) (stage extra : String) : List UInt8 :=
  row [toString p.events, toString p.maxPayload, toString p.maxSize, toString round, stage, extra]

def report (descriptor : Nat) (bytes : List UInt8) : Job Unit := do
  let (result, disk) := (← get).disk.appendAll descriptor bytes
  modify fun s => { s with disk }
  liftExcept (caused .io result)

/-- Decodes a log, which has to hold as many records as have been written. -/
def check (log : List UInt8) (written : Nat) : Except Failure Nat := do
  let records ← during .decode "decode trace log" (Record.decodeAll log)
  if records.length = written then return records.length
  else
    .error (.of (.refused s!"decoded {records.length} records, logger wrote {written}"))

/-- One round, whose number is the seed of its traffic. In the end the log is removed, if that can be
done. -/
def round (p : Profile) (disabled : Bool) (clock descriptor number : Nat) : Job Unit := do
  let log := s!"benchmarks/tmp-trace-{clock}-{number}.bin"
  let messages := Traffic.messages ⟨p.events, p.maxPayload, p.commandRate, .ofNat number⟩
  report descriptor (stageRow p number "gen" s!"messages={messages.length}")
  let fresh : Logger FileSystem Nat Snapshots := Logger.new (← get).disk
  let (configured, logger) := fresh.setLogFile log p.maxSize
  liftExcept (caused .log configured)
  let (summary, logger) := (logger.setEnabled !disabled).drain messages
  let (closed, logger) := logger.closeFile
  modify fun s => { s with disk := logger.writer.medium }
  liftExcept (caused .log closed)
  report descriptor <| stageRow p number "replay" <|
    s!"written={summary.written};bytes={summary.bytesWritten};capped={summary.capReached}"
  if (← get).disk.present log then
    let bytes ← Job.ask fun disk => caused .io (disk.fetch log)
    let count ← liftExcept (check bytes summary.written)
    report descriptor (stageRow p number "decode" s!"records={count}")
  modify fun s => { s with disk := ((s.disk.removeFile log).toOption).getD s.disk }

/-- Where the report is made at this time. One that is there already is continued. -/
def reportPath (clock : Nat) : String := s!"benchmarks/reports/bench-{clock}.csv"

/-- Runs a benchmark. `clock` sets its files apart from those of others. -/
def bench (arguments : List String) (clock : Nat) : Job Unit := do
  let path := flagValue "profile" "benchmarks/profiles/small.toml" arguments
  match readBool? (flagValue "disabled" "false" arguments) with
  | none => throw (.of (.refused "--disabled expects true|false"))
  | some disabled =>
    let p ← Job.ask (Profile.load path)
    Job.print <| Text.utf8 <|
      s!"Profile: events={p.events}, max_payload={p.maxPayload}, max_size={p.maxSize}, " ++
      s!"repeats={p.repeats}, disabled={disabled}\n"
    modify fun s => { s with disk := (s.disk.ensureDirectory "benchmarks/reports").2 }
    let (opened, disk) := (← get).disk.openAppend (reportPath clock)
    modify fun s => { s with disk }
    let descriptor ← liftExcept (caused .io opened)
    report descriptor (row columns)
    (List.range p.repeats.toNat).forM (round p disabled clock descriptor)
    Job.print (Text.utf8 s!"Wrote report → {reportPath clock}\n")

def run (arguments : List String) (clock : Nat) (disk : FileSystem) : Outcome :=
  Job.outcome (bench arguments clock) disk

end TraceJournal.Bench
