/-!
# Paths

A path names a file or directory by the parts between its slashes. Some questions are answered
from the text alone: its extension, what it lies in, and a name below it.
-/
namespace TraceJournal

/-- A path as its parts. Empty parts are dropped; a slash at the end demands a directory. -/
structure Path where
  absolute : Bool
  parts : List String
  directory : Bool
deriving DecidableEq, Repr

namespace Path

def splitSlashes (cs : List Char) : List (List Char) :=
  cs.foldr
    (fun c pieces =>
      match c, pieces with
      | '/', pieces => [] :: pieces
      | c, piece :: pieces => (c :: piece) :: pieces
      | c, [] => [[c]])
    [[]]

def ofString (text : String) : Path :=
  let cs := text.toList
  let pieces := (splitSlashes cs).filter (!·.isEmpty)
  ⟨cs.head? == some '/', pieces.map String.ofList, cs.getLast? == some '/'⟩

/-- The parts that count when a path is taken apart: a dot stands for nothing, except at the
start of a relative path. -/
def components (p : Path) : List String :=
  match p.absolute, p.parts with
  | false, "." :: rest => "." :: rest.filter (· ≠ ".")
  | _, parts => parts.filter (· ≠ ".")

def parent? (p : Path) : Option Path :=
  match p.components with
  | [] => none
  | components => some ⟨p.absolute, components.dropLast, false⟩

def isEmpty (p : Path) : Bool := !p.absolute && p.parts.isEmpty

def fileName? (p : Path) : Option String :=
  match p.components.getLast? with
  | some "." | some ".." | none => none
  | some name => some name

def splitLastDot (cs : List Char) : Option (List Char × List Char) :=
  let after := cs.reverse.takeWhile (· ≠ '.')
  if after.length = cs.length then none
  else some (cs.take (cs.length - after.length - 1), after.reverse)

/-- What follows the last dot of the file name. A name whose only dot is its first character
has no extension. -/
def extension? (text : String) : Option String := do
  let name ← (ofString text).fileName?
  let (stem, ext) ← splitLastDot name.toList
  if stem.isEmpty then none else return String.ofList ext

/-- Drops parts at the end that stand for nothing. -/
def dropTrailing (pieces : List (List Char)) : List (List Char) :=
  (pieces.reverse.dropWhile fun piece => piece.isEmpty || piece == ['.']).reverse

/-- Cuts off a part at the front that is not between slashes: the root, or a leading dot. -/
def splitHead (cs : List Char) : List Char × List Char :=
  match cs with
  | '/' :: rest => (['/'], rest)
  | ['.'] => (['.'], [])
  | '.' :: '/' :: rest => (['.'], '/' :: rest)
  | cs => ([], cs)

/-- What the path of a text lies in, as it stands in that text. The root and the empty path lie
in nothing. -/
def parentText? (text : String) : Option String :=
  let (head, body) := splitHead text.toList
  match dropTrailing (splitSlashes body) with
  | [] => if head = ['.'] then some "" else none
  | pieces =>
    let above := dropTrailing pieces.dropLast
    some (String.ofList (head ++ ['/'].intercalate above))

def join (directory name : String) : String :=
  if directory.isEmpty || directory.toList.getLast? == some '/' then directory ++ name
  else directory ++ "/" ++ name

end Path

end TraceJournal
