import TraceJournal.Cbor.Float
import TraceJournal.Record.Wire
import TraceJournal.Shape.Error
import TraceJournal.Text.Utf8

/-!
# Tokens of CBOR

A token is the head of an item, together with the content of a string whose length it gives. An
input that stops in the middle of a token, or cannot continue, ends in a token that says so.

Strings are read in blocks. Where the input stops in the middle of a string, the blocks that are
there have been read: the bytes in them have been seen, and a text may be malformed in them.
-/
namespace TraceJournal.Cbor

/-- A token. Of bytes, those are known that have been seen before a fault. -/
inductive Token where
  | unsigned (n : Nat)
  | negative (n : Nat)
  | bytes (length : Nat) (seen : List UInt8) (fault : Option ReadFault)
  | text (length : Nat) (content : Except ReadFault String)
  | openBytes
  | openText
  | list (length : Option Nat)
  | map (length : Option Nat)
  | tag (n : Nat)
  | simple (n : Nat)
  | float (x : Float)
  | stop
  | fault (fault : ReadFault)

namespace Token

/-- The argument of a head whose first byte has these lower bits, and what follows it; no
argument if the length is indefinite. -/
def argument? (low : Nat) (rest : List UInt8) :
    Except ReadFault (Option Nat × List UInt8) :=
  let wide (width : Nat) : Except ReadFault (Option Nat × List UInt8) :=
    match BigEndian.read? width rest with
    | some (n, rest) => .ok (some n, rest)
    | none => .error .ended
  match low with
  | 24 => wide 1
  | 25 => wide 2
  | 26 => wide 4
  | 27 => wide 8
  | 31 => .ok (none, rest)
  | low => if low < 24 then .ok (some low, rest) else .error .malformed

def textBlock : Nat := 4096

def byteBlock : Nat := 16

/-- Why a text that lacks its end cannot be read. The start of a character at the end of a block
is read once more with the next one. -/
def textFault (present : List UInt8) : ReadFault :=
  match h : take? textBlock present with
  | none => .ended
  | some (block, rest) =>
    match hb : Text.leftOver? block with
    | none => .malformed
    | some tail =>
      have : tail.length + rest.length < present.length := by
        obtain ⟨rfl, hl⟩ := take?_eq_some_iff.1 h
        have := Text.length_leftOver? hb
        rw [textBlock] at hl
        rw [List.length_append]
        omega
      textFault (tail ++ rest)
termination_by present.length

/-- The token of bytes of length `n`, and what follows them. Without all of them, nothing
follows. -/
def ofBytes (n : Nat) (rest : List UInt8) : Token × List UInt8 :=
  match take? n rest with
  | some (content, rest) => (.bytes n content none, rest)
  | none => (.bytes n (rest.take (rest.length / byteBlock * byteBlock)) (some .ended), [])

def ofText (n : Nat) (rest : List UInt8) : Token × List UInt8 :=
  match take? n rest with
  | some (content, rest) =>
    match Text.ofUtf8? content with
    | some s => (.text n (.ok s), rest)
    | none => (.text n (.error .malformed), rest)
  | none => (.text n (.error (textFault rest)), [])

/-- A token of the last major type, by the lower bits of its first byte and its argument. -/
def ofOther (low n : Nat) : Token :=
  if low = 25 then .float (Float.ofBits (FloatFormat.half.widen n))
  else if low = 26 then .float (Float.ofBits (FloatFormat.single.widen n))
  else if low = 27 then .float (Float.ofBits (UInt64.ofNat n))
  else .simple n

def ofArgument (major low : Nat) (argument : Option Nat) (rest : List UInt8) :
    Token × List UInt8 :=
  match major, argument with
  | 0, some n => (.unsigned n, rest)
  | 1, some n => (.negative n, rest)
  | 2, some n => ofBytes n rest
  | 2, none => (.openBytes, rest)
  | 3, some n => ofText n rest
  | 3, none => (.openText, rest)
  | 4, length => (.list length, rest)
  | 5, length => (.map length, rest)
  | 6, some n => (.tag n, rest)
  | 7, none => (.stop, rest)
  | 7, some n => (ofOther low n, rest)
  | _, _ => (.fault .malformed, [])

def ofHead (first : UInt8) (rest : List UInt8) : Token × List UInt8 :=
  match argument? (first.toNat % 32) rest with
  | .error f => (.fault f, [])
  | .ok (argument, rest) => ofArgument (first.toNat / 32) (first.toNat % 32) argument rest

theorem length_argument? {low : Nat} {rest tail : List UInt8} {argument : Option Nat}
    (h : argument? low rest = .ok (argument, tail)) : tail.length ≤ rest.length := by
  have wide (width : Nat) (h : (match BigEndian.read? width rest with
      | some (n, rest) => (.ok (some n, rest) : Except ReadFault (Option Nat × List UInt8))
      | none => .error .ended) = .ok (argument, tail)) : tail.length ≤ rest.length := by
    split at h
    · next n r hr =>
      cases h
      have := BigEndian.length_of_read? hr
      omega
    · cases h
  unfold argument? at h
  split at h
  · exact wide 1 h
  · exact wide 2 h
  · exact wide 4 h
  · exact wide 8 h
  · cases h
    exact Nat.le_refl _
  · split at h
    · cases h
      exact Nat.le_refl _
    · cases h

theorem length_ofBytes (n : Nat) (rest : List UInt8) :
    (ofBytes n rest).2.length ≤ rest.length := by
  unfold ofBytes
  split
  · next h =>
    obtain ⟨rfl, -⟩ := take?_eq_some_iff.1 h
    simp
  · simp

theorem length_ofText (n : Nat) (rest : List UInt8) :
    (ofText n rest).2.length ≤ rest.length := by
  unfold ofText
  split
  · next h =>
    obtain ⟨rfl, -⟩ := take?_eq_some_iff.1 h
    split <;> simp
  · simp

theorem length_ofArgument (major low : Nat) (argument : Option Nat) (rest : List UInt8) :
    (ofArgument major low argument rest).2.length ≤ rest.length := by
  unfold ofArgument
  split <;> first
    | exact Nat.le_refl _ | exact length_ofBytes _ _ | exact length_ofText _ _
    | exact Nat.zero_le _

theorem length_ofHead (first : UInt8) (rest : List UInt8) :
    (ofHead first rest).2.length ≤ rest.length := by
  unfold ofHead
  split
  · exact Nat.zero_le _
  · next h => exact Nat.le_trans (length_ofArgument _ _ _ _) (length_argument? h)

end Token

/-- Appends the tokens of an input to those that are done, which are newest first. -/
def collect (done : List Token) (input : List UInt8) : List Token :=
  match input with
  | [] => done.reverse
  | first :: rest =>
    let next := Token.ofHead first rest
    collect (next.1 :: done) next.2
termination_by input.length
decreasing_by
  have := Token.length_ofHead first rest
  simp only [List.length_cons]
  omega

def tokens (input : List UInt8) : List Token := collect [] input

end TraceJournal.Cbor
