/-!
# Storage

What a log writer needs of the medium that holds its file: to create or empty a file under a
name, to append bytes to it, and to flush it. What copies of the file need: to create the
directory that they go to, and to copy. Every operation may fail; the medium after a failure is
whatever the failure left behind.
-/
namespace TraceJournal

inductive IoError where
  | notFound
  | alreadyExists
  | notADirectory
  | isADirectory
  | nameTooLong
  | nulInName
  | invalidUtf8
  | notARegularFile
  | shortWrite
  | medium (text : String)
deriving DecidableEq, Repr, Inhabited

def IoError.message : IoError → String
  | notFound => "No such file or directory (os error 2)"
  | alreadyExists => "File exists (os error 17)"
  | notADirectory => "Not a directory (os error 20)"
  | isADirectory => "Is a directory (os error 21)"
  | nameTooLong => "File name too long (os error 36)"
  | nulInName => "file name contained an unexpected NUL byte"
  | invalidUtf8 => "stream did not contain valid UTF-8"
  | notARegularFile => "the source path is neither a regular file nor a symlink to a regular file"
  | shortWrite => "failed to write whole buffer"
  | medium text => text

/-- A medium `σ` whose open files are held by handles `η`. `create` leaves an empty file open;
`writeAll` appends all bytes or fails. -/
class Storage (σ : Type) (η : outParam Type) where
  create : String → σ → Except IoError η × σ
  writeAll : η → List UInt8 → σ → Except IoError Unit × σ
  flush : η → σ → Except IoError Unit × σ

/-- A medium with directories. `ensureDirectory` creates a directory and all that it lies in;
`copyFile` copies the file at one path to another. -/
class Directories (σ : Type) where
  ensureDirectory : String → σ → Except IoError Unit × σ
  copyFile : String → String → σ → Except IoError Unit × σ

end TraceJournal
