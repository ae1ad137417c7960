import TraceJournal.Bench.Run
import TraceJournal.Main
import TraceJournal.Proofs.Log.Attempts
import TraceJournal.Proofs.Log.Stored
import TraceJournal.Proofs.Message.GreedyPrefix
import TraceJournal.Proofs.Log.Cap
import TraceJournal.Proofs.Record.Exactness
import TraceJournal.Proofs.Message.Erasure
import TraceJournal.Proofs.Message.Accounting
import TraceJournal.Proofs.Text.Digits
import TraceJournal.Proofs.Value
import TraceJournal.Proofs.Json.Lexing
import TraceJournal.Proofs.Shape.Rendering
import TraceJournal.Proofs.Shape.Datum
import TraceJournal.Proofs.Json.Trees
import TraceJournal.Proofs.Text.Lines
import TraceJournal.Proofs.Json.Printed
import TraceJournal.Proofs.Script.Lines
import TraceJournal.Proofs.Cbor.Heads
import TraceJournal.Proofs.Cbor.Trees
import TraceJournal.Proofs.Script.Form
import TraceJournal.Proofs.Storage.Places
import TraceJournal.Proofs.Storage.Files
import TraceJournal.Proofs.Script.File
import TraceJournal.Proofs.Storage.Keeping
import TraceJournal.Proofs.Storage.Troubled
import TraceJournal.Proofs.Log.Snapshot
import TraceJournal.Proofs.Log.OnDisk
import TraceJournal.Proofs.Message.Snapshots
import TraceJournal.Proofs.Message.Undisturbed
import TraceJournal.Proofs.Record.Positions
import TraceJournal.Proofs.Script.Numbering
import TraceJournal.Proofs.CommandLine.Decode
import TraceJournal.Proofs.Traffic
import TraceJournal.Proofs.Message.Simulated
import TraceJournal.Proofs.Record.Arriving
import TraceJournal.Proofs.Record.Cutting
import TraceJournal.Proofs.Record.Scratch
import TraceJournal.Proofs.Script.Streaming
import TraceJournal.Proofs.Log.Stages
import TraceJournal.Proofs.Log.Choice
import TraceJournal.Proofs.Traffic.Course
import TraceJournal.Proofs.Storage.Confined
import TraceJournal.Proofs.CommandLine.Replay
import TraceJournal.Proofs.Log.Width
import TraceJournal.Proofs.Traffic.Stability
