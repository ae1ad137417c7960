import TraceJournal.Decimal.Layout
import TraceJournal.Text.Utf8
import TraceJournal.Value

/-!
# Writing JSON

Data as JSON text, either on one line without blanks or indented by two spaces a level. Only
quotes, backslashes and control characters are escaped.
-/
namespace TraceJournal.Json

private def ascii (s : String) : List UInt8 := Text.utf8 s

def writeByte (b : UInt8) : List UInt8 :=
  match b with
  | 0x22 => [0x5C, 0x22]
  | 0x5C => [0x5C, 0x5C]
  | 0x08 => [0x5C, 0x62]
  | 0x09 => [0x5C, 0x74]
  | 0x0A => [0x5C, 0x6E]
  | 0x0C => [0x5C, 0x66]
  | 0x0D => [0x5C, 0x72]
  | b =>
    if b < 0x20 then
      let digit (n : Nat) : UInt8 := UInt8.ofNat (if n < 10 then 0x30 + n else 0x57 + n)
      [0x5C, 0x75, 0x30, 0x30, digit (b.toNat / 16), digit (b.toNat % 16)]
    else [b]

def writeString (s : String) : List UInt8 :=
  0x22 :: (Text.utf8 s).flatMap writeByte ++ [0x22]

def writeInt (n : Int) : List UInt8 :=
  ascii (if n < 0 then "-" ++ Nat.repr n.natAbs else Nat.repr n.toNat)

/-- A number in its shortest form; what is no finite number is null. -/
def writeFloat (x : Float) : List UInt8 :=
  if x.isFinite then ascii (Decimal.compact x) else ascii "null"

/-- Text without blanks, or with every part on a line of its own. -/
inductive Style where
  | compact
  /-- Indented by two blanks for each of the levels outside. -/
  | indented (level : Nat)

namespace Style

def inner : Style → Style
  | compact => compact
  | indented level => indented (level + 1)

def lineBreak : Style → List UInt8
  | compact => []
  | indented level => 0x0A :: List.replicate (2 * level) 0x20

def colon : Style → List UInt8
  | compact => [0x3A]
  | indented _ => [0x3A, 0x20]

end Style

mutual

def write (style : Style) : Value → List UInt8
  | .null => ascii "null"
  | .bool true => ascii "true"
  | .bool false => ascii "false"
  | .int n => writeInt n
  | .float x => writeFloat x
  | .text s => writeString s
  | .list [] => [0x5B, 0x5D]
  | .list (item :: items) =>
    0x5B :: style.inner.lineBreak ++ write style.inner item ++ writeItems style.inner items ++
      style.lineBreak ++ [0x5D]
  | .object [] => [0x7B, 0x7D]
  | .object ((name, value) :: members) =>
    0x7B :: style.inner.lineBreak ++ writeString name ++ style.colon ++
      write style.inner value ++ writeMembers style.inner members ++ style.lineBreak ++ [0x7D]

def writeItems (style : Style) : List Value → List UInt8
  | [] => []
  | item :: items => 0x2C :: style.lineBreak ++ write style item ++ writeItems style items

def writeMembers (style : Style) : List (String × Value) → List UInt8
  | [] => []
  | (name, value) :: members =>
    0x2C :: style.lineBreak ++ writeString name ++ style.colon ++ write style value ++
      writeMembers style members

end

/-- On one line, without blanks. -/
def compact (v : Value) : List UInt8 := write .compact v

/-- Indented, without a final newline. -/
def pretty (v : Value) : List UInt8 := write (.indented 0) v

end TraceJournal.Json
