import TraceJournal.CommandLine.Flags
import TraceJournal.Config
import TraceJournal.Traffic

/-!
# Invocations

What can be asked for on the command line: to simulate traffic, to replay a script through a
log, or to decode a log file.
-/
namespace TraceJournal.CommandLine

/-- A script to be replayed. Settings that are given here go before those of the
configuration. -/
structure Replay where
  script : String
  config : Option String
  logFile : Option String
  maxSize : Option UInt32
  disabled : Bool
  snapshots : Option String
  summary : Option String
deriving DecidableEq, Repr

inductive Invocation where
  | version
  | help
  | simulate (params : TrafficParams) (out : String)
  | run (replay : Replay)
  | decode (log : String) (out : Option String)

/-- The settings of a log in which those of the command line replace the others. -/
def Replay.adjust (r : Replay) (c : Config) : Config :=
  { fileName := r.logFile <|> c.fileName
    maxSize := r.maxSize.getD c.maxSize
    enabled := c.enabled && !r.disabled }

namespace Invocation

def simulateFlags : List Flag :=
  [⟨"events", .word 1⟩, ⟨"max-payload", .longWord⟩, ⟨"command-rate", .decimal⟩,
    ⟨"seed", .longWord⟩, ⟨"out", .path⟩]

def defaultScript : String := "script.jsonl"

def ofSimulate (s : Settings) : Option Invocation := do
  let usual := TrafficParams.initial
  let events ← s.value? "events" (readUInt32 1)
  let maxPayload ← s.value? "max-payload" readUInt64
  let commandRate ← s.value? "command-rate" Decimal.read?
  let seed ← s.value? "seed" readUInt64
  let out ← s.value? "out" readPath
  let params : TrafficParams :=
    { events := events.getD usual.events
      maxPayload := (maxPayload.map UInt64.toNat).getD usual.maxPayload
      commandRate := commandRate.getD usual.commandRate
      seed := seed.getD usual.seed }
  return simulate params (out.getD defaultScript)

def runFlags : List Flag :=
  [⟨"script", .path⟩, ⟨"config", .path⟩, ⟨"log-file", .path⟩, ⟨"max-size", .word 0⟩,
    ⟨"disabled", .switch⟩, ⟨"dp-dir", .path⟩, ⟨"summary", .path⟩]

def ofRun (s : Settings) : Option Invocation := do
  let script ← s.value? "script" readPath
  let replay : Replay :=
    { script := ← script
      config := ← s.value? "config" readPath
      logFile := ← s.value? "log-file" readPath
      maxSize := ← s.value? "max-size" (readUInt32 0)
      disabled := s.has "disabled"
      snapshots := ← s.value? "dp-dir" readPath
      summary := ← s.value? "summary" readPath }
  return run replay

def decodeFlags : List Flag := [⟨"log", .path⟩, ⟨"out", .path⟩]

def ofDecode (s : Settings) : Option Invocation := do
  let log ← s.value? "log" readPath
  return decode (← log) (← s.value? "out" readPath)

def ofFlags (known : List Flag) (read : Settings → Option Invocation)
    (arguments : List String) : Option Invocation :=
  match Flag.read known [] arguments with
  | .ok settings => read settings
  | .error .helpWanted => some help
  | .error .misused => none

/-- Reads a command line; `none` if it is wrong. -/
def read? : List String → Option Invocation
  | "simulate" :: rest => ofFlags simulateFlags ofSimulate rest
  | "run" :: rest => ofFlags runFlags ofRun rest
  | "decode" :: rest => ofFlags decodeFlags ofDecode rest
  | argument :: _ =>
    if argument = "--version" || Flag.isShort 'V' argument then some version
    else if argument = "--help" || Flag.isShort 'h' argument then some help
    else none
  | [] => none

def paths : Invocation → List String
  | version | help => []
  | simulate _ out => [out]
  | run r => r.script :: [r.config, r.logFile, r.snapshots, r.summary].filterMap id
  | decode log out => log :: out.toList

end Invocation

end TraceJournal.CommandLine
