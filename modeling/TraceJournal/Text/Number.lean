/-!
# Numbers in text

Decimal text padded to a least width, and readings of decimal text: digits alone, or with a
sign in front.
-/
namespace TraceJournal.Text

/-- Decimal digits of `n`, with zeros in front up to `width` places. -/
def padded (width n : Nat) : String :=
  let digits := Nat.repr n
  String.ofList (List.replicate (width - digits.length) '0') ++ digits

def digit? (c : Char) : Option Nat :=
  if '0' ≤ c ∧ c ≤ '9' then some (c.toNat - '0'.toNat) else none

/-- The number written by a non-empty run of decimal digits and nothing else. -/
def natural? : List Char → Option Nat
  | [] => none
  | cs => cs.foldlM (fun acc c => (digit? c).map (acc * 10 + ·)) 0

/-- A natural number, which may have a plus sign. -/
def unsigned? : List Char → Option Nat
  | '+' :: cs => natural? cs
  | cs => natural? cs

def integer? : List Char → Option Int
  | '-' :: cs => (natural? cs).map fun n => -n
  | cs => (unsigned? cs).map fun n => n

end TraceJournal.Text
