import TraceJournal.Json.Number
import TraceJournal.Text.Utf8

/-!
# Tokens of JSON text

A text is read byte by byte by a machine that yields its tokens in order. A text that stops in
the middle of a token, or cannot continue, ends in a token that says so; nothing follows it.

A number or a string has two readings. Where its value is wanted, it has to be in range and
well formed to the last bit. Where it is only passed over, its form is enough.
-/
namespace TraceJournal.Json

/-- A token. `passed` tells why a number or string cannot even be passed over. -/
inductive Token where
  | openList | closeList | openObject | closeObject | comma | colon
  | null
  | bool (b : Bool)
  | number (value : Except ReadFault Number) (passed : Option ReadFault)
  | string (value : Except ReadFault String) (passed : Option ReadFault)
  /-- A word that is cut or misspelled. -/
  | word (fault : ReadFault)
  /-- A byte that starts no token. -/
  | stray

namespace Token

def hexDigit? (b : UInt8) : Option Nat :=
  if 0x30 ≤ b ∧ b ≤ 0x39 then some (b.toNat - 0x30)
  else if 0x41 ≤ b ∧ b ≤ 0x46 then some (b.toNat - 0x41 + 10)
  else if 0x61 ≤ b ∧ b ≤ 0x66 then some (b.toNat - 0x61 + 10)
  else none

def escaped? : UInt8 → Option UInt8
  | 0x22 => some 0x22
  | 0x5C => some 0x5C
  | 0x2F => some 0x2F
  | 0x62 => some 0x08
  | 0x66 => some 0x0C
  | 0x6E => some 0x0A
  | 0x72 => some 0x0D
  | 0x74 => some 0x09
  | _ => none

def unit? (a b c d : UInt8) : Option Nat := do
  return (((← hexDigit? a) * 16 + (← hexDigit? b)) * 16 + (← hexDigit? c)) * 16 + (← hexDigit? d)

def codePoint (n : Nat) : List UInt8 := Text.utf8 (Char.ofNat n).toString

/-- Replaces the escapes in the inside of a string and appends it to `done`, which is newest
first. `last` tells why the inside ends where it does: nothing if a quote follows it. -/
def unescape (last : Option ReadFault) (done : List UInt8) :
    List UInt8 → Except ReadFault (List UInt8)
  | [] => match last with
    | none => .ok done.reverse
    | some fault => .error fault
  | 0x5C :: 0x75 :: a :: b :: c :: d :: rest =>
    match unit? a b c d with
    | none => .error .malformed
    | some n =>
      if n < 0xD800 ∨ 0xE000 ≤ n then unescape last ((codePoint n).reverse ++ done) rest
      else if 0xDC00 ≤ n then .error .malformed
      else
        match rest with
        | 0x5C :: 0x75 :: a :: b :: c :: d :: rest =>
          match unit? a b c d with
          | none => .error .malformed
          | some m =>
            if m < 0xDC00 ∨ 0xE000 ≤ m then .error .malformed
            else
              let bytes := codePoint (0x10000 + (n - 0xD800) * 0x400 + (m - 0xDC00))
              unescape last (bytes.reverse ++ done) rest
        | [] | [0x5C] | 0x5C :: 0x75 :: _ => .error (last.getD .malformed)
        | _ => .error .malformed
  | 0x5C :: 0x75 :: _ => .error (last.getD .malformed)
  | [0x5C] => .error (last.getD .malformed)
  | 0x5C :: b :: rest =>
    match escaped? b with
    | none => .error .malformed
    | some c => unescape last (c :: done) rest
  | b :: rest => unescape last (b :: done) rest

def ofInside (inside : List UInt8) (last : Option ReadFault) : Token :=
  let value := do
    match Text.ofUtf8? (← unescape last [] inside) with
    | some s => .ok s
    | none => .error .malformed
  .string value last

def ofNumeral (n : Numeral) : Token := .number n.value none

end Token

/-- Where the machine stands inside a string: between characters, after a backslash, or with
some bytes of a numeric escape to come, which has been well formed so far or not. -/
inductive StringPhase where
  | plain
  | escape
  | hex (left : Nat) (good : Bool)

/-- What part of a number was read last. -/
inductive NumberPhase where
  | sign | zero | whole | point | fraction | mark | markSign | exponent

/-- Where the machine stands. What is read of a string or number is kept newest first. -/
inductive LexerState where
  | gap
  | string (inside : List UInt8) (phase : StringPhase)
  | number (read : Numeral) (phase : NumberPhase)
  | word (rest : List UInt8) (token : Token)
  | stopped

structure Lexer where
  tokens : List Token
  state : LexerState

namespace Lexer

def start : Lexer := ⟨[], .gap⟩

def emit (tokens : List Token) (token : Token) (state : LexerState) : Lexer :=
  ⟨token :: tokens, state⟩

def isBlank (b : UInt8) : Bool := b == 0x20 || b == 0x0A || b == 0x0D || b == 0x09

def digit? (b : UInt8) : Option Nat :=
  if 0x30 ≤ b ∧ b ≤ 0x39 then some (b.toNat - 0x30) else none

def finishNumeral (n : Numeral) : Numeral :=
  ⟨n.negative, n.whole.reverse, n.fraction.reverse,
    n.exponent.map fun (negative, digits) => (negative, digits.reverse)⟩

def stepGap (tokens : List Token) (b : UInt8) : Lexer :=
  match b with
  | 0x5B => emit tokens .openList .gap
  | 0x5D => emit tokens .closeList .gap
  | 0x7B => emit tokens .openObject .gap
  | 0x7D => emit tokens .closeObject .gap
  | 0x2C => emit tokens .comma .gap
  | 0x3A => emit tokens .colon .gap
  | 0x22 => ⟨tokens, .string [] .plain⟩
  | 0x2D => ⟨tokens, .number ⟨true, [], [], none⟩ .sign⟩
  | 0x30 => ⟨tokens, .number ⟨false, [0], [], none⟩ .zero⟩
  | 0x6E => ⟨tokens, .word [0x75, 0x6C, 0x6C] .null⟩
  | 0x74 => ⟨tokens, .word [0x72, 0x75, 0x65] (.bool true)⟩
  | 0x66 => ⟨tokens, .word [0x61, 0x6C, 0x73, 0x65] (.bool false)⟩
  | b =>
    if isBlank b then ⟨tokens, .gap⟩
    else
      match digit? b with
      | some d => ⟨tokens, .number ⟨false, [d], [], none⟩ .whole⟩
      | none => emit tokens .stray .stopped

def stepString (tokens : List Token) (inside : List UInt8) (phase : StringPhase) (b : UInt8) :
    Lexer :=
  match phase with
  | .plain =>
    if b == 0x22 then emit tokens (Token.ofInside inside.reverse none) .gap
    else if b == 0x5C then ⟨tokens, .string (b :: inside) .escape⟩
    else if b < 0x20 then
      emit tokens (Token.ofInside inside.reverse (some .malformed)) .stopped
    else ⟨tokens, .string (b :: inside) .plain⟩
  | .escape =>
    if b == 0x75 then ⟨tokens, .string (b :: inside) (.hex 3 true)⟩
    else if (Token.escaped? b).isSome then ⟨tokens, .string (b :: inside) .plain⟩
    else emit tokens (Token.ofInside (b :: inside).reverse (some .malformed)) .stopped
  | .hex left good =>
    let good := good && (Token.hexDigit? b).isSome
    match left, good with
    | 0, true => ⟨tokens, .string (b :: inside) .plain⟩
    | 0, false => emit tokens (Token.ofInside (b :: inside).reverse (some .malformed)) .stopped
    | left + 1, good => ⟨tokens, .string (b :: inside) (.hex left good)⟩

/-- A number that cannot continue as it must. -/
def badNumber (tokens : List Token) : Lexer :=
  emit tokens (.number (.error .malformed) (some .malformed)) .stopped

/-- A byte after the end of a number. -/
def endNumber (tokens : List Token) (n : Numeral) (b : UInt8) : Lexer :=
  stepGap (Token.ofNumeral (finishNumeral n) :: tokens) b

def addExponentDigit (n : Numeral) (d : Nat) : Numeral :=
  { n with exponent := n.exponent.map fun (negative, digits) => (negative, d :: digits) }

def stepNumber (tokens : List Token) (n : Numeral) (phase : NumberPhase) (b : UInt8) : Lexer :=
  let isMark := b == 0x65 || b == 0x45
  match phase, digit? b with
  | .sign, some 0 => ⟨tokens, .number { n with whole := [0] } .zero⟩
  | .sign, some d => ⟨tokens, .number { n with whole := [d] } .whole⟩
  | .sign, none => badNumber tokens
  | .zero, some _ => badNumber tokens
  | .whole, some d => ⟨tokens, .number { n with whole := d :: n.whole } .whole⟩
  | .zero, none | .whole, none =>
    if b == 0x2E then ⟨tokens, .number n .point⟩
    else if isMark then ⟨tokens, .number { n with exponent := some (false, []) } .mark⟩
    else endNumber tokens n b
  | .point, some d | .fraction, some d =>
    ⟨tokens, .number { n with fraction := d :: n.fraction } .fraction⟩
  | .point, none => badNumber tokens
  | .fraction, none =>
    if isMark then ⟨tokens, .number { n with exponent := some (false, []) } .mark⟩
    else endNumber tokens n b
  | .mark, none =>
    if b == 0x2B then ⟨tokens, .number n .markSign⟩
    else if b == 0x2D then ⟨tokens, .number { n with exponent := some (true, []) } .markSign⟩
    else badNumber tokens
  | .markSign, none => badNumber tokens
  | .mark, some d | .markSign, some d | .exponent, some d =>
    ⟨tokens, .number (addExponentDigit n d) .exponent⟩
  | .exponent, none => endNumber tokens n b

def stepWord (tokens : List Token) (rest : List UInt8) (token : Token) (b : UInt8) : Lexer :=
  match rest with
  | [] => stepGap (token :: tokens) b
  | [last] => if b == last then emit tokens token .gap else emit tokens (.word .malformed) .stopped
  | next :: rest =>
    if b == next then ⟨tokens, .word rest token⟩ else emit tokens (.word .malformed) .stopped

def step (lexer : Lexer) (b : UInt8) : Lexer :=
  match lexer.state with
  | .gap => stepGap lexer.tokens b
  | .string inside phase => stepString lexer.tokens inside phase b
  | .number n phase => stepNumber lexer.tokens n phase b
  | .word rest token => stepWord lexer.tokens rest token b
  | .stopped => lexer

def finish (lexer : Lexer) : List Token :=
  let tokens := match lexer.state with
    | .gap | .stopped => lexer.tokens
    | .string inside _ => Token.ofInside inside.reverse (some .ended) :: lexer.tokens
    | .word _ _ => .word .ended :: lexer.tokens
    | .number n phase =>
      match phase with
      | .zero | .whole | .fraction | .exponent =>
        Token.ofNumeral (finishNumeral n) :: lexer.tokens
      | .sign | .point | .mark | .markSign =>
        .number (.error .ended) (some .malformed) :: lexer.tokens
  tokens.reverse

end Lexer

def tokens (text : List UInt8) : List Token := (text.foldl Lexer.step Lexer.start).finish

end TraceJournal.Json
