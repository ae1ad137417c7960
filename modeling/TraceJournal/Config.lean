import TraceJournal.Json.Node
import TraceJournal.Log.Logger
import TraceJournal.Failure
import TraceJournal.Storage.FileSystem
import TraceJournal.Toml.Document

/-!
# Settings of a log

What a user can say about a log: its file, its budget, and whether it starts out enabled. A
setting that is not given keeps its default; one that is not known is refused.
-/
namespace TraceJournal

structure Config where
  fileName : Option String
  maxSize : UInt32
  enabled : Bool
deriving DecidableEq, Repr

namespace Config

def initial : Config := ⟨none, defaultMaxSize, true⟩

def fields {ν : Type} [Source ν] : Fields ν [Option String, UInt32, Bool] :=
  .cons "file_name" (.defaulted initial.fileName)
    (Source.nullable (Source.text "path string")) <|
  .cons "max_size" (.defaulted initial.maxSize) Source.uint32 <|
  .cons "enabled" (.defaulted initial.enabled) Source.boolean .nil

def read {ν : Type} [Source ν] (source : ν) : Except ReadFault Config := do
  let (fileName, maxSize, enabled, ()) ← fields.read "struct TraceLogConfig" true source
  return ⟨fileName, maxSize, enabled⟩

def toValue (c : Config) : Value :=
  .object [("file_name", match c.fileName with
      | some name => .text name
      | none => .null),
    ("max_size", .nat c.maxSize.toNat), ("enabled", .bool c.enabled)]

def ofToml (text : String) : Except Failure Config :=
  during .toml "parse trace log config toml" (Toml.read read text)

def load (path : String) (fs : FileSystem) : Except Failure Config := do
  let text ← during .io s!"read config {path}" (fs.readText path)
  doing s!"load config {path}" (ofToml text)

variable {σ η ξ : Type}

/-- Opens or shuts the gate, and chooses the file if one is given. -/
def apply (c : Config) (l : Logger σ η ξ) : Except LogError Unit × Logger σ η ξ :=
  let l := l.setEnabled c.enabled
  match c.fileName with
  | some name => l.setLogFile name c.maxSize
  | none => (.ok (), l)

end Config

end TraceJournal
