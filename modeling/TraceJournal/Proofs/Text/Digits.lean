import TraceJournal.Text.Number
import TraceJournal.Text.Utf8
import Mathlib.Logic.Function.Basic

/-!
# Text in bytes

The bytes of a text are those of its characters, one after the other. A natural number in decimal is
a run of digit bytes, of which the first is no zero unless it is the only one. With zeros in front it
is still the only number with its text.
-/
namespace TraceJournal.Text

theorem utf8_eq_flatMap (s : String) : utf8 s = s.toList.flatMap String.utf8EncodeChar := by
  rw [utf8, ← String.utf8Encode_toList, List.utf8Encode, List.toList_data_toByteArray]

theorem utf8_append (s t : String) : utf8 (s ++ t) = utf8 s ++ utf8 t := by
  simp [utf8_eq_flatMap]

theorem length_utf8 (s : String) : (utf8 s).length = s.utf8ByteSize := rfl

theorem utf8_of_ofUtf8? {bytes : List UInt8} {s : String} (h : ofUtf8? bytes = some s) :
    utf8 s = bytes := by
  rw [ofUtf8?, String.fromUTF8?] at h
  split at h
  · cases h
    rfl
  · cases h

theorem utf8EncodeChar_of_lt {c : Char} (hc : c.toNat < 128) :
    String.utf8EncodeChar c = [UInt8.ofNat c.toNat] := by
  have hle : c.val.toNat ≤ 127 := Nat.le_of_lt_succ hc
  rw [String.utf8EncodeChar, if_pos hle]
  rfl

theorem utf8_singleton {c : Char} (hc : c.toNat < 128) :
    utf8 (String.singleton c) = [UInt8.ofNat c.toNat] := by
  rw [utf8_eq_flatMap, String.toList_singleton, List.flatMap_singleton, utf8EncodeChar_of_lt hc]

theorem utf8ByteSize_ofList_replicate (c : Char) (n : Nat) :
    (String.ofList (List.replicate n c)).utf8ByteSize = n * (String.utf8EncodeChar c).length := by
  rw [← length_utf8, utf8_eq_flatMap, String.toList_ofList, List.flatMap_replicate,
    List.length_flatten]
  simp

theorem utf8ByteSize_replicate {c : Char} (hc : c.toNat < 128) (n : Nat) :
    (String.ofList (List.replicate n c)).utf8ByteSize = n := by
  rw [utf8ByteSize_ofList_replicate, utf8EncodeChar_of_lt hc]
  simp

theorem utf8_singleton_ofNat {b : UInt8} (hb : b.toNat < 128) :
    utf8 (String.singleton (Char.ofNat b.toNat)) = [b] := by
  have hvalid : b.toNat.isValidChar := .inl (by omega)
  have hchar : (Char.ofNat b.toNat).toNat = b.toNat := by
    rw [Char.ofNat, dif_pos hvalid]
    rfl
  rw [utf8_singleton (by omega), hchar, UInt8.ofNat_toNat]

/-- The decimal digits of a number, the most significant one first. -/
def decimals (n : Nat) : List Nat := if n < 10 then [n] else decimals (n / 10) ++ [n % 10]

def digitByte (d : Nat) : UInt8 := UInt8.ofNat (0x30 + d)

theorem lt_of_mem_decimals {n d : Nat} (h : d ∈ decimals n) : d < 10 := by
  fun_induction decimals n with
  | case1 n hn =>
    rw [List.mem_singleton] at h
    omega
  | case2 n hn ih =>
    rw [List.mem_append, List.mem_singleton] at h
    rcases h with h | rfl
    · exact ih h
    · omega

theorem foldl_decimals (n : Nat) : (decimals n).foldl (fun acc d => acc * 10 + d) 0 = n := by
  fun_induction decimals n with
  | case1 n hn => simp
  | case2 n hn ih =>
    rw [List.foldl_append, ih]
    simp only [List.foldl_cons, List.foldl_nil]
    omega

theorem decimals_zero : decimals 0 = [0] := by rw [decimals, if_pos (by decide)]

theorem decimals_eq_cons {n : Nat} (h : 0 < n) : ∃ d ds, decimals n = d :: ds ∧ 0 < d := by
  fun_induction decimals n with
  | case1 n hn => exact ⟨n, [], rfl, h⟩
  | case2 n hn ih =>
    obtain ⟨d, ds, hds, hd⟩ := ih (by omega)
    exact ⟨d, ds ++ [n % 10], by rw [hds, List.cons_append], hd⟩

theorem utf8_repr (n : Nat) : utf8 (Nat.repr n) = (decimals n).map digitByte := by
  have digit {d : Nat} (hd : d < 10) : utf8 (String.singleton d.digitChar) = [digitByte d] := by
    have hc : d.digitChar.toNat = 0x30 + d := Nat.toNat_digitChar_of_lt_ten hd
    rw [utf8_singleton (by omega), hc, digitByte]
  fun_induction decimals n with
  | case1 n hn => rw [Nat.repr_of_lt hn, digit hn, List.map_singleton]
  | case2 n hn ih =>
    rw [Nat.repr_of_ge (Nat.le_of_not_lt hn), utf8_append, ih, digit (Nat.mod_lt n (by decide)),
      List.map_append, List.map_singleton]

theorem toList_padded (width n : Nat) : (padded width n).toList =
    List.replicate (width - (Nat.repr n).length) '0' ++ Nat.toDigits 10 n := by
  rw [padded, String.toList_append, String.toList_ofList, Nat.repr_eq_ofList_toDigits,
    String.toList_ofList]

theorem isDigit_of_mem_padded {width n : Nat} {c : Char} (h : c ∈ (padded width n).toList) :
    c.isDigit = true := by
  rw [toList_padded, List.mem_append] at h
  rcases h with h | h
  · rw [List.eq_of_mem_replicate h]
    rfl
  · exact Nat.isDigit_of_mem_toDigits (by decide) (by decide) h

/-- Different numbers have different texts, whatever they are padded to. -/
theorem padded_injective (width : Nat) : Function.Injective (padded width) := by
  have hvalue (n : Nat) : Nat.ofDigitChars 10 (padded width n).toList 0 = n := by
    rw [toList_padded, Nat.ofDigitChars_append, Nat.ofDigitChars_replicate_zero, Nat.mul_zero,
      Nat.ofDigitChars_ten_toDigits]
  intro m n h
  rw [← hvalue m, h, hvalue n]

theorem repr_injective : Function.Injective Nat.repr := by
  intro m n h
  apply padded_injective 0
  simp [padded, h]

/-- The same words with different numbers are different texts. -/
theorem numbered_inj {words : String} {m n : Nat} :
    words ++ toString m = words ++ toString n ↔ m = n :=
  (String.append_right_inj words).trans repr_injective.eq_iff

end TraceJournal.Text
