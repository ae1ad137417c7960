import TraceJournal.Storage.Basic
import TraceJournal.Storage.Contents
import TraceJournal.Storage.Path
import TraceJournal.Text.Utf8

/-!
# A file system

Directories and files under names, as a single process sees them. A directory entry leads to a
file; an open file is held by a descriptor with a position of its own. A file lives on while it
is held, whatever happens to its entry, and two ways to one file see the same content.
-/
namespace TraceJournal

inductive Entry where
  | directory
  | file (number : Nat)
deriving DecidableEq, Repr

/-- An open file and the position of the next write. -/
structure OpenFile where
  number : Nat
  position : Nat
deriving DecidableEq, Repr

/-- Entries by their place below the root, contents by file number, and open files by
descriptor. Relative paths start at `home`, which is a directory that is always there. -/
structure FileSystem where
  home : List String
  entries : List (List String × Entry)
  contents : List (Nat × Contents)
  opened : List OpenFile

namespace FileSystem

def empty : FileSystem := ⟨["home"], [], [], []⟩

def maxName : Nat := 255

def maxPath : Nat := 4095

def entry? (fs : FileSystem) (place : List String) : Option Entry :=
  if place.isPrefixOf fs.home then some .directory else fs.entries.lookup place

def content (fs : FileSystem) (number : Nat) : Contents :=
  (fs.contents.lookup number).getD Contents.empty

def setContent (number : Nat) (c : Contents) (fs : FileSystem) : FileSystem :=
  if fs.contents.any (·.1 == number) then
    { fs with contents := fs.contents.map fun (n, old) => (n, if n == number then c else old) }
  else { fs with contents := fs.contents ++ [(number, c)] }

/-- Goes from a directory through one part of a path, which has to be a directory. -/
def enter (fs : FileSystem) (place : List String) (part : String) :
    Except IoError (List String) :=
  if part = "." then .ok place
  else if part = ".." then .ok place.dropLast
  else if maxName < part.utf8ByteSize then .error .nameTooLong
  else
    match fs.entry? (place ++ [part]) with
    | some .directory => .ok (place ++ [part])
    | some (.file _) => .error .notADirectory
    | none => .error .notFound

/-- Texts that cannot name anything. -/
def checkName (text : String) : Except IoError Unit :=
  if text.toList.contains '\x00' then .error .nulInName
  else if text.isEmpty then .error .notFound
  else if maxPath < text.utf8ByteSize then .error .nameTooLong
  else .ok ()

/-- The directory that a path's last part is looked up in, and that part, if it is a name. -/
def locate (fs : FileSystem) (p : Path) : Except IoError (List String × Option String) := do
  let start := if p.absolute then [] else fs.home
  match p.parts.getLast? with
  | none => return (start, none)
  | some last =>
    let place ← p.parts.dropLast.foldlM fs.enter start
    if last = "." ∨ last = ".." then return (← fs.enter place last, none)
    else if maxName < last.utf8ByteSize then .error .nameTooLong
    else return (place, some last)

/-- What a path leads to, and its place. -/
def resolve (fs : FileSystem) (p : Path) : Except IoError (List String × Entry) := do
  match ← fs.locate p with
  | (place, none) => return (place, .directory)
  | (place, some name) =>
    match fs.entry? (place ++ [name]) with
    | none => .error .notFound
    | some .directory => return (place ++ [name], .directory)
    | some (.file number) =>
      if p.directory then .error .notADirectory else return (place ++ [name], .file number)

def present (text : String) (fs : FileSystem) : Bool :=
  (checkName text *> fs.resolve (Path.ofString text)).isOk

def fetch (text : String) (fs : FileSystem) : Except IoError (List UInt8) := do
  checkName text
  match ← fs.resolve (Path.ofString text) with
  | (_, .directory) => .error .isADirectory
  | (_, .file number) => return (fs.content number).toList

def readText (text : String) (fs : FileSystem) : Except IoError String := do
  match Text.ofUtf8? (← fs.fetch text) with
  | some s => return s
  | none => .error .invalidUtf8

/-- The empty file at a path, which is created, or emptied if it is there. -/
def createFile (text : String) (fs : FileSystem) : Except IoError (Nat × FileSystem) := do
  checkName text
  let p := Path.ofString text
  match ← fs.locate p with
  | (_, none) => .error .isADirectory
  | (place, some name) =>
    if p.directory then .error .isADirectory
    else
      match fs.entry? (place ++ [name]) with
      | some .directory => .error .isADirectory
      | some (.file number) => return (number, fs.setContent number Contents.empty)
      | none =>
        let number := fs.contents.length
        let fs := fs.setContent number Contents.empty
        return (number, { fs with entries := fs.entries ++ [(place ++ [name], .file number)] })

/-- Creates or replaces the file at a path. -/
def put (text : String) (bytes : List UInt8) (fs : FileSystem) :
    Except IoError FileSystem := do
  let (number, fs) ← fs.createFile text
  return fs.setContent number (Contents.ofList bytes)

def createDirectory (p : Path) (fs : FileSystem) : Except IoError FileSystem := do
  match ← fs.locate p with
  | (_, none) => .error .alreadyExists
  | (place, some name) =>
    match fs.entry? (place ++ [name]) with
    | some _ => .error .alreadyExists
    | none => return { fs with entries := fs.entries ++ [(place ++ [name], .directory)] }

def isDirectory (p : Path) (fs : FileSystem) : Bool :=
  match fs.resolve p with
  | .ok (_, .directory) => true
  | _ => false

/-- Creates a directory below one that may have to be created first, at most `depth` levels
up. That a directory is there already is no failure. Directories that were created stay. -/
def createDirectories (depth : Nat) (p : Path) (fs : FileSystem) :
    Except IoError Unit × FileSystem :=
  if p.isEmpty then (.ok (), fs)
  else
    match fs.createDirectory p with
    | .ok fs => (.ok (), fs)
    | .error e =>
      if e = .notFound then
        match depth, p.parent? with
        | depth + 1, some parent =>
          match createDirectories depth parent fs with
          | (.error e, fs) => (.error e, fs)
          | (.ok (), fs) =>
            match fs.createDirectory p with
            | .ok fs => (.ok (), fs)
            | .error e => (if fs.isDirectory p then .ok () else .error e, fs)
        | _, _ => (.error e, fs)
      else (if fs.isDirectory p then .ok () else .error e, fs)

def ensureDirectory (text : String) (fs : FileSystem) : Except IoError Unit × FileSystem :=
  if text.isEmpty then (.ok (), fs)
  else
    match checkName text with
    | .error e => (.error e, fs)
    | .ok () =>
      let p := Path.ofString text
      fs.createDirectories p.parts.length p

/-- Removes what is at a path, with all that lies in it. -/
def remove (text : String) (fs : FileSystem) : Except IoError FileSystem := do
  checkName text
  let (place, _) ← fs.resolve (Path.ofString text)
  return { fs with entries := fs.entries.filter fun (other, _) => !place.isPrefixOf other }

/-- Removes the entry of a file. Directories are refused. -/
def removeFile (text : String) (fs : FileSystem) : Except IoError FileSystem := do
  checkName text
  match ← fs.resolve (Path.ofString text) with
  | (_, .directory) => .error .isADirectory
  | (place, .file _) => return { fs with entries := fs.entries.filter (·.1 ≠ place) }

/-- Copies a file. The target is emptied before the source is read, so a file copied onto
itself ends up empty. -/
def copyFile (source target : String) (fs : FileSystem) : Except IoError Unit × FileSystem :=
  match checkName source *> fs.resolve (Path.ofString source) with
  | .error e => (.error e, fs)
  | .ok (_, .directory) => (.error .notARegularFile, fs)
  | .ok (_, .file number) =>
    match fs.createFile target with
    | .error e => (.error e, fs)
    | .ok (copy, fs) => (.ok (), fs.setContent copy (fs.content number))

/-- Creates or empties a file and opens it. -/
def create (text : String) (fs : FileSystem) : Except IoError Nat × FileSystem :=
  match fs.createFile text with
  | .error e => (.error e, fs)
  | .ok (number, fs) => (.ok fs.opened.length, { fs with opened := fs.opened ++ [⟨number, 0⟩] })

/-- Writes at the position of an open file and moves it. -/
def writeAll (descriptor : Nat) (bytes : List UInt8) (fs : FileSystem) :
    Except IoError Unit × FileSystem :=
  match fs.opened[descriptor]? with
  | none => (.error (.medium "Bad file descriptor (os error 9)"), fs)
  | some ⟨number, position⟩ =>
    let fs :=
      if bytes.isEmpty then fs
      else fs.setContent number ((fs.content number).write position bytes)
    (.ok (), { fs with opened := fs.opened.set descriptor ⟨number, position + bytes.length⟩ })

/-- Opens a file as it is, or creates it. -/
def openAppend (text : String) (fs : FileSystem) : Except IoError Nat × FileSystem :=
  match checkName text *> fs.resolve (Path.ofString text) with
  | .ok (_, .file number) =>
    (.ok fs.opened.length, { fs with opened := fs.opened ++ [⟨number, 0⟩] })
  | _ => fs.create text

/-- Moves the position of an open file to its end, and writes there. -/
def appendAll (descriptor : Nat) (bytes : List UInt8) (fs : FileSystem) :
    Except IoError Unit × FileSystem :=
  let atEnd (file : OpenFile) := { file with position := (fs.content file.number).size }
  { fs with opened := fs.opened.modify descriptor atEnd }.writeAll descriptor bytes

/-- Writes are not buffered, so there is nothing to flush. -/
def flush (_descriptor : Nat) (fs : FileSystem) : Except IoError Unit × FileSystem := (.ok (), fs)

instance : Storage FileSystem Nat := ⟨create, writeAll, flush⟩

instance : Directories FileSystem := ⟨ensureDirectory, copyFile⟩

/-- All entries: the place of each, and the content of a file. -/
def places (fs : FileSystem) : List (List String × Option (List UInt8)) :=
  fs.entries.map fun (place, entry) =>
    match entry with
    | .directory => (place, none)
    | .file number => (place, some (fs.content number).toList)

/-- The entries below the working directory, by name; that of a directory ends in a slash. -/
def listing (fs : FileSystem) : List (String × Option (List UInt8)) :=
  fs.places.filterMap fun (place, content) =>
    if fs.home.isPrefixOf place then
      let name := "/".intercalate (place.drop fs.home.length)
      some (if content.isNone then name ++ "/" else name, content)
    else none

end FileSystem

end TraceJournal
