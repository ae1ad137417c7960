/-!
# Short floating point formats

Half and single precision numbers as double precision ones, and back where nothing is lost. A
format has a sign bit, some bits of exponent and some of fraction.
-/
namespace TraceJournal.Cbor

/-- The sizes of a format shorter than a double. -/
structure FloatFormat where
  exponentBits : Nat
  fractionBits : Nat

namespace FloatFormat

def half : FloatFormat := ⟨5, 10⟩

def single : FloatFormat := ⟨8, 23⟩

/-- The exponent field of the number one. -/
def bias (f : FloatFormat) : Nat := Nat.pow 2 (f.exponentBits - 1) - 1

def special (f : FloatFormat) : Nat := Nat.pow 2 f.exponentBits - 1

def gap (f : FloatFormat) : Nat := 52 - f.fractionBits

def widen (f : FloatFormat) (bits : Nat) : UInt64 :=
  let fraction := bits % Nat.pow 2 f.fractionBits
  let exponent := bits / Nat.pow 2 f.fractionBits % Nat.pow 2 f.exponentBits
  let sign := bits / Nat.pow 2 (f.fractionBits + f.exponentBits) % 2
  let double (exponent fraction : Nat) : UInt64 :=
    UInt64.ofNat (sign * Nat.pow 2 63 + exponent * Nat.pow 2 52 + fraction)
  if exponent = f.special then double 2047 (fraction * Nat.pow 2 f.gap)
  else if exponent ≠ 0 then double (exponent + 1023 - f.bias) (fraction * Nat.pow 2 f.gap)
  else if fraction = 0 then double 0 0
  else
    let top := fraction.log2
    double (top + 1024 - f.bias - f.fractionBits)
      ((fraction - Nat.pow 2 top) * Nat.pow 2 (52 - top))

/-- The bits of a double's value in the format, if it has them exactly. -/
def narrow? (f : FloatFormat) (double : UInt64) : Option Nat :=
  let fraction := double.toNat % Nat.pow 2 52
  let exponent := double.toNat / Nat.pow 2 52 % 2048
  let sign := double.toNat / Nat.pow 2 63
  let short (exponent fraction : Nat) : Nat :=
    (sign * Nat.pow 2 f.exponentBits + exponent) * Nat.pow 2 f.fractionBits + fraction
  let exact := fraction % Nat.pow 2 f.gap = 0
  let least := 1024 - f.bias
  if exponent = 2047 then
    if exact then some (short f.special (fraction / Nat.pow 2 f.gap)) else none
  else if exponent = 0 then if fraction = 0 then some (short 0 0) else none
  else if 1023 + f.bias < exponent then none
  else if least ≤ exponent then
    if exact then some (short (exponent + f.bias - 1023) (fraction / Nat.pow 2 f.gap)) else none
  else
    let mantissa := Nat.pow 2 52 + fraction
    let shift := f.gap + (least - exponent)
    if mantissa % Nat.pow 2 shift = 0 then some (short 0 (mantissa / Nat.pow 2 shift)) else none

end FloatFormat

end TraceJournal.Cbor
