import TraceJournal.Bytes
import TraceJournal.Cbor.Float
import TraceJournal.Text.Utf8
import TraceJournal.Value

/-!
# Writing CBOR

Data as a CBOR item. Every length is definite, every head and every floating point number as
short as its value allows.
-/
namespace TraceJournal.Cbor

/-- The kinds of items, by the upper bits of their first byte. -/
inductive Major where
  | unsigned | negative | bytes | text | list | map | tag | other
deriving DecidableEq, Repr

def Major.code : Major → Nat
  | .unsigned => 0
  | .negative => 1
  | .bytes => 2
  | .text => 3
  | .list => 4
  | .map => 5
  | .tag => 6
  | .other => 7

def initial (major : Major) (low : Nat) : UInt8 := UInt8.ofNat (major.code * 32 + low)

def head (major : Major) (n : Nat) : List UInt8 :=
  if n < 24 then [initial major n]
  else if n < 0x100 then initial major 24 :: BigEndian.digits 1 n
  else if n < 0x10000 then initial major 25 :: BigEndian.digits 2 n
  else if n < 0x100000000 then initial major 26 :: BigEndian.digits 4 n
  else initial major 27 :: BigEndian.digits 8 n

def writeInt (n : Int) : List UInt8 :=
  if n < 0 then head .negative (-1 - n).toNat else head .unsigned n.toNat

/-- The shortest format that has the number exactly. -/
def writeFloat (x : Float) : List UInt8 :=
  let bits := x.toBits
  match FloatFormat.half.narrow? bits, FloatFormat.single.narrow? bits with
  | some n, _ => initial .other 25 :: BigEndian.digits 2 n
  | none, some n => initial .other 26 :: BigEndian.digits 4 n
  | none, none => initial .other 27 :: BigEndian.digits 8 bits.toNat

def writeText (s : String) : List UInt8 :=
  let bytes := Text.utf8 s
  head .text bytes.length ++ bytes

mutual

def write : Value → List UInt8
  | .null => [initial .other 22]
  | .bool true => [initial .other 21]
  | .bool false => [initial .other 20]
  | .int n => writeInt n
  | .float x => writeFloat x
  | .text s => writeText s
  | .list items => head .list items.length ++ writeItems items
  | .object members => head .map members.length ++ writeMembers members

def writeItems : List Value → List UInt8
  | [] => []
  | item :: items => write item ++ writeItems items

def writeMembers : List (String × Value) → List UInt8
  | [] => []
  | (name, value) :: members => writeText name ++ write value ++ writeMembers members

end

end TraceJournal.Cbor
