import TraceJournal.Decimal.Reading
import TraceJournal.Shape.Datum
import TraceJournal.Toml.Quoted

/-!
# Numbers in TOML

An integer is decimal, or has a base written before its digits; it has to fit 64 bits. A
floating point number has a fraction, an exponent, or both. An underline may stand between two
digits.
-/
namespace TraceJournal.Toml

open Scan

namespace Number

def isDigit (c : Char) : Bool := (Text.digit? c).isSome

/-- Digits, with single underlines between them. -/
def grouped (digit : Char → Bool) : Scan (List Char) := do
  let first ← satisfy digit
  let rest ← many do
    match ← peek? with
    | some '_' => do
      char '_'
      some <$> satisfy digit
    | _ => optional (satisfy digit)
  return first :: rest

/-- Whether there is a minus sign; a plus sign counts as none. -/
def sign : Scan Bool := do
  match ← peek? with
  | some '-' => do
    char '-'
    return true
  | some '+' => do
    char '+'
    return false
  | _ => return false

/-- The digits of a whole number, the first of which is zero only if it is the only one. -/
def whole : Scan (List Char) := do
  match ← peek? with
  | some '0' => do
    char '0'
    return ['0']
  | _ => grouped isDigit

def integer (n : Int) : Scan Datum :=
  if -0x8000000000000000 ≤ n ∧ n < 0x8000000000000000 then return .int n else failure

/-- An integer in another base, which has a prefix of its own. -/
def inBase (mark : Char) (base : Nat) : Scan Datum := do
  word ['0', mark]
  let digits ← grouped fun c => (Quoted.hexDigit? c).any (· < base)
  integer (digits.foldl (fun n c => n * base + (Quoted.hexDigit? c).getD 0) 0 : Nat)

def fraction : Scan (List Char) := do
  char '.'
  grouped isDigit

def exponent : Scan Int := do
  let _ ← satisfy fun c => c == 'e' || c == 'E'
  let negative ← sign
  let n := Decimal.ofDigits (← grouped isDigit)
  return if negative then -n else n

/-- A number that is only known by name. -/
def named : Scan Float :=
  (do word ['i', 'n', 'f']; return Decimal.infinity)
    <|> (do word ['n', 'a', 'n']; return Decimal.undefined)

/-- A decimal number. One that is too large is an infinity, which is refused unless it is
negative. -/
def decimal (negative : Bool) : Scan Datum := do
  let whole ← whole
  match ← optional fraction, ← optional exponent with
  | none, none =>
    let n : Int := Decimal.ofDigits whole
    integer (if negative then -n else n)
  | fraction, exponent =>
    let x := Decimal.ofParts whole (fraction.getD []) (exponent.getD 0)
    if negative then return .float (-x)
    else if x.isInf then failure
    else return .float x

end Number

def number : Scan Datum :=
  Number.inBase 'x' 16 <|> Number.inBase 'o' 8 <|> Number.inBase 'b' 2 <|> do
    let negative ← Number.sign
    (do
      let x ← Number.named
      return .float (if negative then -x else x))
      <|> Number.decimal negative

end TraceJournal.Toml
