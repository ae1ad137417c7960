import TraceJournal.Toml.Number

/-!
# Dates and times in TOML

A moment is a date, a time of day, or both with or without an offset. Nothing is wanted of it
but that it exists.
-/
namespace TraceJournal.Toml

open Scan

namespace Moment

/-- A number of exactly this many digits, within bounds. -/
def field (digits low high : Nat) : Scan Nat := do
  let cs ← (List.replicate digits ()).mapM fun () => satisfy Number.isDigit
  let n := Decimal.ofDigits cs
  if low ≤ n ∧ n ≤ high then return n else failure

def isLeap (year : Nat) : Bool := year % 4 = 0 && (year % 100 ≠ 0 || year % 400 = 0)

def days (year month : Nat) : Nat :=
  if month = 2 then (if isLeap year then 29 else 28)
  else if month ∈ [4, 6, 9, 11] then 30
  else 31

def date : Scan Unit := do
  let year ← field 4 0 9999
  char '-'
  let month ← field 2 1 12
  char '-'
  let _ ← field 2 1 (days year month)

/-- A time of day. A minute may have a leap second. -/
def time : Scan Unit := do
  let _ ← field 2 0 23
  char ':'
  let _ ← field 2 0 59
  char ':'
  let _ ← field 2 0 60
  let _ ← optional do
    char '.'
    let _ ← satisfy Number.isDigit
    run Number.isDigit

def offset : Scan Unit := do
  match ← satisfy fun _ => true with
  | 'Z' | 'z' => return ()
  | '+' | '-' => do
    let _ ← field 2 0 23
    char ':'
    let _ ← field 2 0 59
  | _ => failure

def isSeparator (c : Char) : Bool := c == 'T' || c == 't' || c == ' '

end Moment

/-- A date, a time, or both. -/
def moment : Scan Unit :=
  (do
    Moment.date
    let _ ← optional do
      let _ ← satisfy Moment.isSeparator
      Moment.time
      optional Moment.offset)
    <|> Moment.time

end TraceJournal.Toml
