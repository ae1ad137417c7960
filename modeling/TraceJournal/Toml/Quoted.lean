import TraceJournal.Toml.Scan

/-!
# Quoted text in TOML

A text between double quotes may hold escapes, a text between single quotes is taken as it is.
Three quotes on each side enclose a text of several lines; a newline right after the opening
quotes does not count, and up to two quotes may stand right before the closing ones.
-/
namespace TraceJournal.Toml

open Scan

namespace Quoted

def hexDigit? (c : Char) : Option Nat :=
  if '0' ≤ c ∧ c ≤ '9' then some (c.toNat - 48)
  else if 'A' ≤ c ∧ c ≤ 'F' then some (c.toNat - 55)
  else if 'a' ≤ c ∧ c ≤ 'f' then some (c.toNat - 87)
  else none

def codePoint (digits : Nat) : Scan Char := do
  let n ← (List.replicate digits ()).foldlM
    (fun n () => do
      let c ← satisfy fun c => (hexDigit? c).isSome
      return n * 16 + (hexDigit? c).getD 0)
    0
  if n.isValidChar then return Char.ofNat n else failure

/-- What a backslash and the characters after it stand for. -/
def escape : Scan Char := do
  char '\\'
  match ← satisfy fun _ => true with
  | 'b' => return '\x08'
  | 't' => return '\t'
  | 'n' => return '\n'
  | 'f' => return '\x0C'
  | 'r' => return '\r'
  | '"' => return '"'
  | '\\' => return '\\'
  | 'u' => codePoint 4
  | 'U' => codePoint 8
  | _ => failure

/-- A backslash at the end of a line, with all blanks and newlines after it. -/
def lineContinuation : Scan Unit := do
  char '\\'
  blanks
  newline
  let _ ← many (optional (newline <|> do let _ ← satisfy isBlank))

def line (quote : Char) (escapes : Bool) : Scan String := do
  char quote
  let cs ← many do
    match ← peek? with
    | none => failure
    | some c =>
      if c == quote then return none
      else if escapes && c == '\\' then some <$> escape
      else some <$> satisfy isPrintable
  char quote
  return String.ofList cs

/-- What the next characters of a text on several lines stand for. -/
def piece (escapes : Bool) : Scan (List Char) := do
  if escapes && (← peek?) == some '\\' then
    (do lineContinuation; return []) <|> (do return [← escape])
  else (do newline; return ['\n']) <|> (do return [← satisfy isPrintable])

/-- A text on several lines between three quotes. -/
def block (quote : Char) (escapes : Bool) : Scan String := do
  let fence := List.replicate 3 quote
  word fence
  let _ ← optional newline
  let pieces ← many do
    if ← at? fence then return none else some <$> piece escapes
  let quotes ← run (· == quote)
  let inside := quotes.length - 3
  if 2 < inside then failure
  return String.ofList (pieces.flatten ++ List.replicate inside quote)

end Quoted

def quotedLine : Scan String := Quoted.line '"' true <|> Quoted.line '\x27' false

/-- A text between quotes. Three quotes always open a text of several lines. -/
def quotedText : Scan String := do
  if ← at? (List.replicate 3 '"') then Quoted.block '"' true
  else if ← at? (List.replicate 3 '\x27') then Quoted.block '\x27' false
  else quotedLine

end TraceJournal.Toml
