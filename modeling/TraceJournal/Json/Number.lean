import TraceJournal.Shape.Error

/-!
# Numbers in JSON text

A number token is kept as its digits. It stands for an integer if it has neither a fraction nor
an exponent and fits 64 bits, and for a floating point number else: its first digits, as many
as fit a word, are scaled by the power of ten that the others leave.
-/
namespace TraceJournal.Json

/-- A number token: its sign, the digits before and after the point, and its exponent. -/
structure Numeral where
  negative : Bool
  whole : List Nat
  fraction : List Nat
  exponent : Option (Bool × List Nat)
deriving DecidableEq, Repr

inductive Number where
  | int (n : Int)
  | float (x : Float)

namespace Numeral

def maxWord : Nat := UInt64.size - 1

def maxExponent : Nat := 0x7fffffff

/-- Extends a number by digits as long as it stays within `limit`. Returns it with the number of
digits that were left. -/
def extend (limit : Nat) : Nat → List Nat → Nat × Nat
  | n, [] => (n, 0)
  | n, d :: digits =>
    if n * 10 + d ≤ limit then extend limit (n * 10 + d) digits else (n, digits.length + 1)

def tenTo (n : Nat) : Float := Float.ofScientific 1 false n

/-- Divides by `10 ^ n`, in steps that a double can hold. -/
def shrink (x : Float) (n : Nat) : Float :=
  if n ≤ 308 then x / tenTo n
  else if x == 0 then x
  else shrink (x / tenTo 308) (n - 308)
termination_by n
decreasing_by omega

/-- The double `significand * 10 ^ exponent`, unless it is infinite. -/
def scaled? (significand : Nat) (exponent : Int) : Option Float :=
  let x := (UInt64.ofNat significand).toFloat
  if exponent < 0 then some (shrink x exponent.natAbs)
  else if exponent ≤ 308 then
    let y := x * tenTo exponent.toNat
    if y.isInf then none else some y
  else if x == 0 then some x
  else none

/-- The sum of two exponents, kept within 32 bits. -/
def addExponents (a b : Int) : Int :=
  max (-0x80000000) (min (maxExponent : Int) (a + b))

def magnitude? (n : Numeral) : Option Float :=
  let (significand, dropped) := extend maxWord 0 n.whole
  let (significand, rest) := extend maxWord significand n.fraction
  let shift : Int := dropped - (n.fraction.length - rest : Nat)
  match n.exponent with
  | none => scaled? significand shift
  | some (negative, digits) =>
    match extend maxExponent 0 digits with
    | (e, 0) => scaled? significand (addExponents shift (if negative then -e else e))
    | (_, _ + 1) => if significand ≠ 0 ∧ !negative then none else some 0

def float? (n : Numeral) : Option Number :=
  n.magnitude?.map fun x => .float (if n.negative then -x else x)

/-- What the token stands for. A negative zero is a floating point number, and so is an integer
that does not fit; a number that is too large for a double is malformed. -/
def value (n : Numeral) : Except ReadFault Number :=
  let number :=
    if n.fraction.isEmpty && n.exponent.isNone then
      match extend maxWord 0 n.whole with
      | (m, 0) =>
        if !n.negative then some (.int m)
        else if m ≠ 0 ∧ m ≤ Nat.pow 2 63 then some (.int (-m))
        else n.float?
      | _ => n.float?
    else n.float?
  match number with
  | some number => .ok number
  | none => .error .malformed

end Numeral

end TraceJournal.Json
