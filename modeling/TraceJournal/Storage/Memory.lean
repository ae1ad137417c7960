import TraceJournal.Storage.Basic

/-!
# Storage in memory

A medium that maps names to contents and can be told to misbehave: to refuse to create or to
flush, to accept nothing, to interrupt calls, to take only so much at a time, or to be full.
-/
namespace TraceJournal

/-- Files by name, counters of the calls to create and to flush, and how the medium is to
misbehave. A file may grow up to `limit` bytes, by at most `chunk` bytes in one call. -/
structure Memory where
  files : List (String × List UInt8)
  opens : Nat
  flushes : Nat
  failOpen : Bool
  failFlush : Bool
  zeroWrite : Bool
  interrupts : Nat
  limit : Option Nat
  chunk : Option Nat
deriving DecidableEq, Repr

namespace Memory

/-- A medium without files that never fails. -/
def empty : Memory := ⟨[], 0, 0, false, false, false, 0, none, none⟩

/-- The content of a file; a file that does not exist has none. -/
def content (m : Memory) (name : String) : List UInt8 := (m.files.lookup name).getD []

def setContent (m : Memory) (name : String) (bytes : List UInt8) : Memory :=
  if m.files.any (·.1 == name) then
    { m with files := m.files.map fun (n, old) => (n, if n == name then bytes else old) }
  else { m with files := m.files ++ [(name, bytes)] }

def create (name : String) (m : Memory) : Except IoError String × Memory :=
  let m := { m with opens := m.opens + 1 }
  if m.failOpen then (.error (.medium "no such directory"), m)
  else (.ok name, m.setContent name [])

/-- How many of `wanted` bytes one call takes for a file that has `size` bytes; `none` if the
device is full. -/
def accepts (m : Memory) (size wanted : Nat) : Option Nat :=
  if m.zeroWrite then some 0
  else
    match m.limit with
    | none => some (min (m.chunk.getD wanted) wanted)
    | some limit =>
      if limit ≤ size then none
      else some (min (min (limit - size) (m.chunk.getD wanted)) wanted)

/-- Appends bytes call by call until all are taken, a call fails, or a call takes nothing. -/
def writeAll (name : String) (bytes : List UInt8) (m : Memory) : Except IoError Unit × Memory :=
  match bytes with
  | [] => (.ok (), m)
  | b :: bs =>
    -- An interrupted call is made again, so a request uses up all interruptions.
    let m := { m with interrupts := 0 }
    let old := m.content name
    match m.accepts old.length (b :: bs).length with
    | none => (.error (.medium "device full"), m)
    | some 0 => (.error .shortWrite, m)
    | some (n + 1) =>
      writeAll name (bs.drop n) (m.setContent name (old ++ (b :: bs).take (n + 1)))
termination_by bytes.length
decreasing_by
  simp only [List.length_drop, List.length_cons]
  omega

def flush (_name : String) (m : Memory) : Except IoError Unit × Memory :=
  let m := { m with flushes := m.flushes + 1 }
  if m.failFlush then (.error (.medium "flush failed"), m) else (.ok (), m)

instance : Storage Memory String := ⟨create, writeAll, flush⟩

end Memory

end TraceJournal
