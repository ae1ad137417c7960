import TraceJournal.Cbor.Node
import TraceJournal.Cbor.Writer
import TraceJournal.Script.Basic
import TraceJournal.Script.Lines
import TraceJournal.Storage.FileSystem
import TraceJournal.Text.Letter

/-!
# Script files

A script is kept in a file whose extension tells its format: JSON or CBOR with version and
metadata, or messages line by line without. What has another extension is written as JSON and
cannot be read.
-/
namespace TraceJournal

inductive ScriptFormat where
  | json | cbor | lines
deriving DecidableEq, Repr

namespace ScriptFormat

/-- The extension of a path, with its ASCII letters in lower case. -/
def extension? (path : String) : Option String :=
  (Path.extension? path).map (·.map Text.lowerCase)

def ofExtension? : String → Option ScriptFormat
  | "json" => some json
  | "cbor" => some cbor
  | "jsonl" | "ndjson" => some lines
  | _ => none

end ScriptFormat

namespace Script

/-- The messages that were read from lines, or the first failure. -/
def ofLines (items : List (Except Failure Message)) : Except Failure Script :=
  ofMessages <$> items.mapM id

def ofBytes (format : ScriptFormat) (bytes : List UInt8) : Except Failure Script :=
  match format with
  | .json =>
    during .json "deserialize JSON script" <|
      Json.read (Script.read Json.Node.message Json.Node.value) bytes
  | .cbor =>
    during .cbor "deserialize CBOR script" <|
      Cbor.read (Script.read Cbor.Node.message Cbor.Node.value) bytes
  | .lines => ofLines (MessageLines.read bytes)

def toBytes (format : ScriptFormat) (s : Script) : List UInt8 :=
  match format with
  | .json => Json.pretty s.toValue
  | .cbor => Cbor.write s.toValue
  | .lines => MessageLines.write s.messages

/-- The failure to read what is no file but can be opened. -/
def unreadable (format : ScriptFormat) (e : IoError) : Failure :=
  match format with
  | .json => ⟨["deserialize JSON script"], .io e⟩
  | .cbor => ⟨["deserialize CBOR script"], .cbor .ended⟩
  | .lines => ⟨["read line 1"], .io e⟩

/-- Reads the script file at a path. A directory can be opened but not read. -/
def load (path : String) (fs : FileSystem) : Except Failure Script :=
  match ScriptFormat.extension? path with
  | none =>
    .error (.of (.refused "path has no extension (expected .json, .cbor, .jsonl, or .ndjson)"))
  | some ext =>
    match ScriptFormat.ofExtension? ext with
    | none =>
      .error (.of (.refused
        s!"unsupported script extension: {ext} (supported: .json, .cbor, .jsonl, .ndjson)"))
    | some format =>
      match fs.fetch path with
      | .ok bytes => ofBytes format bytes
      | .error .isADirectory => .error (unreadable format .isADirectory)
      | .error e => .error ⟨[s!"open {path}"], .io e⟩

def save (path : String) (s : Script) (fs : FileSystem) : Except Failure FileSystem :=
  let format :=
    match ScriptFormat.extension? path >>= ScriptFormat.ofExtension? with
    | some format => format
    | none => .json
  during .io s!"create {path}" (fs.put path (s.toBytes format))

end Script

end TraceJournal
