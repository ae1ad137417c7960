/-!
# Byte strings

Splitting a byte string at a known length, and natural numbers written in a fixed number of
bytes, most significant byte first. `value_digits` says that the written form determines the
number up to its width; `take?_eq_some_iff` that splitting loses nothing.
-/
namespace TraceJournal

/-- The first `n` elements and what follows them, if there are that many. -/
def take? {α : Type} (n : Nat) (xs : List α) : Option (List α × List α) :=
  let head := xs.take n
  if head.length = n then some (head, xs.drop n) else none

theorem take?_eq_some_iff {α : Type} {n : Nat} {xs head tail : List α} :
    take? n xs = some (head, tail) ↔ xs = head ++ tail ∧ head.length = n := by
  simp only [take?, Option.ite_none_right_eq_some, Option.some.injEq, Prod.mk.injEq]
  constructor
  · rintro ⟨hl, rfl, rfl⟩
    exact ⟨(List.take_append_drop n xs).symm, hl⟩
  · rintro ⟨rfl, rfl⟩
    simp

theorem take?_append {α : Type} (head tail : List α) :
    take? head.length (head ++ tail) = some (head, tail) :=
  take?_eq_some_iff.2 ⟨rfl, rfl⟩

theorem take?_eq_none_iff {α : Type} {n : Nat} {xs : List α} :
    take? n xs = none ↔ xs.length < n := by
  simp only [take?, List.length_take, ite_eq_right_iff, reduceCtorEq, imp_false]
  omega

namespace BigEndian

/-- The last `width` base-256 digits of `n`, most significant first. -/
def digits : Nat → Nat → List UInt8
  | 0, _ => []
  | width + 1, n => digits width (n / 256) ++ [UInt8.ofNat n]

/-- The number that a byte string writes. -/
def value (bytes : List UInt8) : Nat :=
  bytes.foldl (fun acc b => acc * 256 + b.toNat) 0

@[simp] theorem length_digits (width n : Nat) : (digits width n).length = width := by
  induction width generalizing n with
  | zero => rfl
  | succ width ih => simp [digits, ih]

theorem value_digits (width n : Nat) : value (digits width n) = n % Nat.pow 256 width := by
  induction width generalizing n with
  | zero => simp [digits, value, Nat.mod_one]
  | succ width ih =>
    have h := ih (n / 256)
    simp only [value] at h
    simp only [digits, value, List.foldl_append, List.foldl_cons, List.foldl_nil, h]
    have hpow : Nat.pow 256 (width + 1) = 256 * Nat.pow 256 width := Nat.pow_succ'
    rw [hpow, Nat.mod_mul, UInt8.toNat_ofNat']
    omega

/-- Reads a number of `width` bytes from the front. -/
def read? (width : Nat) (bytes : List UInt8) : Option (Nat × List UInt8) :=
  (take? width bytes).map fun (head, tail) => (value head, tail)

theorem read?_digits_append (width n : Nat) (rest : List UInt8) :
    read? width (digits width n ++ rest) = some (n % Nat.pow 256 width, rest) := by
  have h := take?_append (digits width n) rest
  rw [length_digits] at h
  simp [read?, h, value_digits]

end BigEndian

end TraceJournal
