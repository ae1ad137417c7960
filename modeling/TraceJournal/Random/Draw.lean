import TraceJournal.Random.ChaCha

/-!
# Draws

Random numbers of a few kinds, drawn one after the other from a stream of words. A number below
a bound is the high part of a product, with one correction that makes all of them almost equally
likely; the correction never reaches the bound.
-/
namespace TraceJournal

abbrev Random := StateM Random.Stream

namespace Random

def word32 : Random (BitVec 32) := do
  let (word, stream) := (← get).word
  set stream
  return word.toBitVec

/-- Two words, the low one first. -/
def word64 : Random (BitVec 64) := do
  let low ← word32
  let high ← word32
  return high ++ low

def byte : Random UInt8 := do
  return UInt8.ofBitVec ((← word32).truncate 8)

def bytes : Nat → Random (List UInt8)
  | 0 => return []
  | n + 1 => do
    let b ← byte
    return b :: (← bytes n)

theorem scaled_lt {size x n : Nat} (hx : x < size) (hn : 0 < n) : x * n / size < n :=
  Nat.div_lt_of_lt_mul (Nat.mul_lt_mul_of_pos_right hx hn)

theorem corrected_lt {size x n : Nat} (hx : x < size) (h : size - n < x * n % size) :
    x * n / size + 1 < n := by
  have split := Nat.div_add_mod (x * n) size
  have hxn : (x + 1) * n ≤ size * n := Nat.mul_le_mul_right n hx
  rw [Nat.succ_mul] at hxn
  have hlt := Nat.mod_lt (x * n) (Nat.zero_lt_of_lt hx)
  by_cases hq : x * n / size + 1 < n
  · exact hq
  · exfalso
    have hle : size * n ≤ size * (x * n / size + 1) := Nat.mul_le_mul_left size (by omega)
    rw [Nat.mul_succ] at hle
    omega

/-- A number below `n`, from draws of `bits` bits. -/
def below {bits : Nat} (draw : Random (BitVec bits)) (n : Nat) (hn : 0 < n) :
    Random (Fin n) := do
  let x ← draw
  if h : Nat.pow 2 bits - n < x.toNat * n % Nat.pow 2 bits then
    let y ← draw
    if Nat.pow 2 bits ≤ x.toNat * n % Nat.pow 2 bits + y.toNat * n / Nat.pow 2 bits then
      return ⟨x.toNat * n / Nat.pow 2 bits + 1, corrected_lt x.isLt h⟩
    else return ⟨x.toNat * n / Nat.pow 2 bits, scaled_lt x.isLt hn⟩
  else return ⟨x.toNat * n / Nat.pow 2 bits, scaled_lt x.isLt hn⟩

/-- True with a probability between zero and one. A certain event draws nothing. -/
def chance (p : Float) : Random Bool := do
  if p == 1 then return true
  else
    let draw ← word64
    return draw.toNat < (p * 18446744073709551616).toUInt64.toNat

end Random

end TraceJournal
