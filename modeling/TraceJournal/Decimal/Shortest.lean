/-!
# Shortest decimal digits

The fewest digits that determine a binary floating point number: of all decimals that round to
it, those with the least number of digits, and of these the one nearest to it. Where two are
equally near, the layout of the text decides. The search is exact: the number, and the
interval of reals that round to it, are fractions.
-/
namespace TraceJournal.Decimal

/-- The number `digits * 10 ^ exponent`. -/
structure Scientific where
  digits : Nat
  exponent : Int
deriving DecidableEq, Repr

/-- Which of two decimals is taken that are equally near to a number. -/
inductive Tie where
  /-- The one whose last digit is even. -/
  | toEven
  /-- The greater one. -/
  | up
deriving DecidableEq, Repr

def Tie.takesBelow (below : Nat) : Tie → Bool
  | toEven => below % 2 == 0
  | up => false

/-- A positive binary number `mantissa * 2 ^ exponent` and the interval of reals that round to
it, all in units of `2 ^ (exponent - 2)`. The ends belong to it if the mantissa is even. -/
structure Rounding where
  value : Nat
  low : Nat
  high : Nat
  closed : Bool
  exponent : Int
deriving Repr

def fractionBits : Nat := 52

/-- The interval around the positive finite double with these bits. Below the smallest number
of a binade the doubles are twice as dense. -/
def Rounding.ofBits (bits : UInt64) : Rounding :=
  let fraction := bits.toNat % Nat.pow 2 fractionBits
  let biased := bits.toNat / Nat.pow 2 fractionBits % 2048
  let mantissa := if biased = 0 then fraction else fraction + Nat.pow 2 fractionBits
  let exponent : Int := (if biased = 0 then 1 else (biased : Int)) - 1075
  let step := if fraction = 0 ∧ 1 < biased then 1 else 2
  ⟨4 * mantissa, 4 * mantissa - step, 4 * mantissa + 2, mantissa % 2 = 0, exponent - 2⟩

namespace Rounding

/-- Factors `(a, b)` such that `n` units compare with `c * 10 ^ k` as `n * a` with `c * b`. -/
def scale (r : Rounding) (k : Int) : Nat × Nat :=
  (Nat.pow 2 r.exponent.toNat * Nat.pow 10 (-k).toNat,
    Nat.pow 10 k.toNat * Nat.pow 2 (-r.exponent).toNat)

def leading (r : Rounding) : Int :=
  let (a, b) := r.scale (-350)
  ((Nat.repr (r.value * a / b)).length : Int) - 351

/-- Whether `c * 10 ^ k` rounds to the number, given the factors for `k`. -/
def admits (r : Rounding) (factors : Nat × Nat) (c : Nat) : Bool :=
  let (a, b) := factors
  if r.closed then r.low * a ≤ c * b && c * b ≤ r.high * a
  else r.low * a < c * b && c * b < r.high * a

/-- The multiple of `10 ^ k` that rounds to the number and is nearest to it, if there is one. -/
def onGrid? (tie : Tie) (r : Rounding) (k : Int) : Option Scientific :=
  let factors := r.scale k
  let (a, b) := factors
  let below := r.value * a / b
  let rest := r.value * a - below * b
  let takeBelow := ⟨below, k⟩
  let takeAbove := ⟨below + 1, k⟩
  match r.admits factors below, r.admits factors (below + 1) with
  | false, false => none
  | true, false => some takeBelow
  | false, true => some takeAbove
  | true, true =>
    if 2 * rest < b || (2 * rest == b && tie.takesBelow below) then some takeBelow
    else some takeAbove

/-- The first hit on ever finer grids. -/
def search (tie : Tie) (r : Rounding) : Nat → Int → Scientific
  | 0, k => (r.onGrid? tie k).getD ⟨0, 0⟩
  | fuel + 1, k =>
    match r.onGrid? tie k with
    | some s => s
    | none => search tie r fuel (k - 1)

end Rounding

/-- The shortest decimal of a positive finite double. Seventeen digits always suffice. A number
that rounds up to a power of ten is found on the grid below that power, as ten. -/
def shortest (tie : Tie) (bits : UInt64) : Scientific :=
  let r := Rounding.ofBits bits
  let s := r.search tie 16 r.leading
  if s.digits = 10 then ⟨1, s.exponent + 1⟩ else s

end TraceJournal.Decimal
