import TraceJournal.Text.Letter
import TraceJournal.Text.Number

/-!
# Reading decimal numbers

The double nearest to a decimal, whatever the number of its digits, and the plain way to write
a floating point number in text.
-/
namespace TraceJournal.Decimal

def infinity : Float := 1 / 0

def undefined : Float := 0 / 0

/-- The double nearest to `mantissa * 10 ^ exponent`. A leading digit above `10 ^ 309` or below
`10 ^ -400` settles it at once. -/
def nearest (mantissa : Nat) (exponent : Int) : Float :=
  let leading := (Nat.repr mantissa).length + exponent
  if mantissa = 0 ∨ leading < -400 then 0
  else if 310 < leading then infinity
  else Float.ofScientific mantissa (exponent < 0) exponent.natAbs

def ofDigits (digits : List Char) : Nat :=
  digits.foldl (fun n c => n * 10 + (Text.digit? c).getD 0) 0

def ofParts (whole fraction : List Char) (exponent : Int) : Float :=
  nearest (ofDigits (whole ++ fraction)) (exponent - fraction.length)

/-- A number with a whole part, a fraction or both, and perhaps a power of ten. -/
def unsigned? (cs : List Char) : Option Float := do
  let (mantissa, power) := cs.span fun c => Text.lowerCase c != 'e'
  let (whole, rest) := mantissa.span (· != '.')
  let fraction := rest.drop 1
  let _ ← Text.natural? (whole ++ fraction)
  match power with
  | [] => return ofParts whole fraction 0
  | _ :: exponent => return ofParts whole fraction (← Text.integer? exponent)

/-- Reads a floating point number. Infinities and the undefined number have names, whose
letters may be upper or lower case. -/
def read? (text : String) : Option Float := do
  let (negative, cs) := match text.toList with
    | '-' :: cs => (true, cs)
    | '+' :: cs => (false, cs)
    | cs => (false, cs)
  let x ← match String.ofList (cs.map Text.lowerCase) with
    | "inf" | "infinity" => some infinity
    | "nan" => some undefined
    | _ => unsigned? cs
  return if negative then -x else x

end TraceJournal.Decimal
