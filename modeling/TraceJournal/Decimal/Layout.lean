import TraceJournal.Decimal.Shortest

/-!
# Floating point numbers in text

The shortest digits of a number, laid out in one of two ways: plainly, with as many zeros as
the number needs, or as data, where very large and very small numbers have an exponent. Of two
decimals that are equally near, the plain text has the greater one and data the even one.
-/
namespace TraceJournal.Decimal

private def zeros (n : Nat) : String := String.ofList (List.replicate n '0')

/-- Digits with a decimal point such that the leading digit stands for `10 ^ leading`, and
whether a fraction was written. -/
def positional (digits : String) (leading : Int) : String × Bool :=
  let cs := digits.toList
  if leading < 0 then ("0." ++ zeros (-leading - 1).toNat ++ digits, true)
  else
    let whole := leading.toNat + 1
    if cs.length ≤ whole then (digits ++ zeros (whole - cs.length), false)
    else (String.ofList (cs.take whole) ++ "." ++ String.ofList (cs.drop whole), true)

/-- The sign and the shortest digits of a finite number, and the exponent of the first digit.
Zero has the digit zero. -/
def parts (tie : Tie) (x : Float) : String × String × Int :=
  let bits := x.toBits
  let sign := if Nat.pow 2 63 ≤ bits.toNat then "-" else ""
  let magnitude := UInt64.ofNat (bits.toNat % Nat.pow 2 63)
  if magnitude == 0 then (sign, "0", 0)
  else
    let s := shortest tie magnitude
    let digits := Nat.repr s.digits
    (sign, digits, s.exponent + digits.length - 1)

def orSpecial (x : Float) (finite : String) : String :=
  if x.isNaN then "NaN"
  else if x.isInf then (if x < 0 then "-inf" else "inf")
  else finite

/-- Without exponent; a whole number has no decimal point. -/
def plain (x : Float) : String :=
  let (sign, digits, leading) := parts .up x
  orSpecial x (sign ++ (positional digits leading).1)

/-- Without exponent, and always with a decimal point. -/
def pointed (x : Float) : String :=
  let (sign, digits, leading) := parts .up x
  let (text, fraction) := positional digits leading
  orSpecial x (sign ++ (if fraction then text else text ++ ".0"))

/-- As data: positional from `1e-5` up to below `1e16` and always with a decimal point, and
with a signed exponent outside of that range. -/
def compact (x : Float) : String :=
  let (sign, digits, leading) := parts .toEven x
  if -5 ≤ leading ∧ leading < 16 then
    let (text, fraction) := positional digits leading
    orSpecial x (sign ++ (if fraction then text else text ++ ".0"))
  else
    let mantissa := match digits.toList with
      | first :: second :: rest => String.ofList (first :: '.' :: second :: rest)
      | _ => digits
    let mark := if leading < 0 then "e-" else "e+"
    orSpecial x (sign ++ mantissa ++ mark ++ Nat.repr leading.natAbs)

end TraceJournal.Decimal
