/-!
# A stream of random words

The key stream of ChaCha with twelve rounds. The state is four rows of four words, and a round
mixes the rows column by column; turning three of the rows makes the diagonals into columns.
-/
namespace TraceJournal.Random

structure Row where
  w : UInt32
  x : UInt32
  y : UInt32
  z : UInt32
deriving DecidableEq, Repr

namespace Row

def map₂ (f : UInt32 → UInt32 → UInt32) (a b : Row) : Row :=
  ⟨f a.w b.w, f a.x b.x, f a.y b.y, f a.z b.z⟩

def turn (a : Row) : Row := ⟨a.x, a.y, a.z, a.w⟩

def toList (a : Row) : List UInt32 := [a.w, a.x, a.y, a.z]

end Row

def rotateLeft (n : UInt32) (a : UInt32) : UInt32 := (a <<< n) ||| (a >>> (32 - n))

/-- Four rows: constants, two rows of key, and the number of the block. -/
structure State where
  a : Row
  b : Row
  c : Row
  d : Row
deriving DecidableEq, Repr

namespace State

/-- Adds one row to a second, and mixes the sum into a third, which is rotated. -/
def mix (a b d : Row) (n : UInt32) : Row × Row :=
  let a := a.map₂ (· + ·) b
  (a, d.map₂ (fun d a => rotateLeft n (d ^^^ a)) a)

def columns (s : State) : State :=
  let (a, d) := mix s.a s.b s.d 16
  let (c, b) := mix s.c d s.b 12
  let (a, d) := mix a b d 8
  let (c, b) := mix c d b 7
  ⟨a, b, c, d⟩

def turn (s : State) : State := ⟨s.a, s.b.turn, s.c.turn.turn, s.d.turn.turn.turn⟩

def turnBack (s : State) : State := ⟨s.a, s.b.turn.turn.turn, s.c.turn.turn, s.d.turn⟩

def doubleRound (s : State) : State := s.columns.turn.columns.turnBack

def add (s t : State) : State :=
  ⟨s.a.map₂ (· + ·) t.a, s.b.map₂ (· + ·) t.b, s.c.map₂ (· + ·) t.c, s.d.map₂ (· + ·) t.d⟩

end State

def times {α : Type} (step : α → α) : Nat → α → α
  | 0, a => a
  | n + 1, a => times step n (step a)

structure StreamKey where
  first : Row
  second : Row
deriving DecidableEq, Repr

namespace StreamKey

/-- The words of the text "expand 32-byte k". -/
def constants : Row := ⟨0x61707865, 0x3320646E, 0x79622D32, 0x6B206574⟩

/-- The block of the stream with this number. -/
def block (key : StreamKey) (number : UInt64) : State :=
  let start : State :=
    ⟨constants, key.first, key.second, ⟨number.toUInt32, (number >>> 32).toUInt32, 0, 0⟩⟩
  (times State.doubleRound 6 start).add start

/-- The next state of the generator that spreads a seed over a key, and its output. -/
def spread (seed : UInt64) : UInt32 × UInt64 :=
  let seed := seed * 6364136223846793005 + 11634580027462260723
  let mixed := (((seed >>> 18) ^^^ seed) >>> 27).toUInt32
  let n := (seed >>> 59).toUInt32
  ((mixed >>> n) ||| (mixed <<< (32 - n)), seed)

def row (seed : UInt64) : Row × UInt64 :=
  let (w, seed) := spread seed
  let (x, seed) := spread seed
  let (y, seed) := spread seed
  let (z, seed) := spread seed
  (⟨w, x, y, z⟩, seed)

def ofSeed (seed : UInt64) : StreamKey :=
  let (first, seed) := row seed
  let (second, _) := row seed
  ⟨first, second⟩

end StreamKey

/-- A place in a stream: the words that are left of the last block, and the number of the next
block. -/
structure Stream where
  key : StreamKey
  ready : List UInt32
  next : UInt64
deriving DecidableEq, Repr

namespace Stream

def ofSeed (seed : UInt64) : Stream := ⟨.ofSeed seed, [], 0⟩

def word (s : Stream) : UInt32 × Stream :=
  match s.ready with
  | word :: ready => (word, { s with ready := ready })
  | [] =>
    let block := s.key.block s.next
    let ready := [block.a.x, block.a.y, block.a.z] ++ block.b.toList ++ block.c.toList ++
      block.d.toList
    (block.a.w, ⟨s.key, ready, s.next + 1⟩)

end Stream

end TraceJournal.Random
