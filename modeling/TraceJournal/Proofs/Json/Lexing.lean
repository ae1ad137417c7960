import TraceJournal.Json.Token
import TraceJournal.Proofs.Json.Spelling
import TraceJournal.Proofs.Text.Lines
import Mathlib.Tactic.IntervalCases

/-!
# Tokens and how they are spelled

However a string or a number is spelled, it reads as one token that holds its value. A number is
complete only when the text does not go on with it, so what is said of the lexer is said in front of a
text that does not.
-/
namespace TraceJournal.Json

namespace Lexer

/-- A byte that does not go on with a number. -/
def ends (b : UInt8) : Bool :=
  (digit? b).isNone && b != 0x2E && b != 0x65 && b != 0x45

/-- A text that does not go on with a number in front of it. -/
def Apart (rest : List UInt8) : Prop := ∀ b ∈ rest.head?, ends b = true

theorem Apart.nil : Apart [] := by simp [Apart]

theorem Apart.cons {b : UInt8} (rest : List UInt8) (h : ends b = true) : Apart (b :: rest) := by
  simpa [Apart] using h

theorem Apart.append {front rest : List UInt8} (hf : Apart front) (hr : Apart rest) :
    Apart (front ++ rest) := by
  cases front with
  | nil => exact hr
  | cons b front => simpa [Apart] using hf

/-- A text that reads as these tokens and leaves the lexer between tokens, if what follows does not go
on with a number. -/
def Lexes (text : List UInt8) (ts : List Token) : Prop :=
  ∀ (done : List Token) (rest : List UInt8), Apart rest →
    ((text ++ rest).foldl step ⟨done, .gap⟩).finish =
      (rest.foldl step ⟨ts.reverse ++ done, .gap⟩).finish

/-- A text after which the lexer is between tokens, whatever follows. -/
def Completes (text : List UInt8) (ts : List Token) : Prop :=
  ∀ done, text.foldl step ⟨done, .gap⟩ = ⟨ts.reverse ++ done, .gap⟩

theorem Lexes.append {front back : List UInt8} {ts us : List Token} (hf : Lexes front ts)
    (hb : Lexes back us) (ha : Apart back) : Lexes (front ++ back) (ts ++ us) := by
  intro done rest hr
  rw [List.append_assoc, hf done (back ++ rest) (ha.append hr), hb _ rest hr, List.reverse_append,
    List.append_assoc]

namespace Completes

theorem nil : Completes [] [] := fun _ => rfl

theorem append {front back : List UInt8} {ts us : List Token} (hf : Completes front ts)
    (hb : Completes back us) : Completes (front ++ back) (ts ++ us) := by
  intro done
  rw [List.foldl_append, hf, hb, List.reverse_append, List.append_assoc]

theorem lexes {text : List UInt8} {ts : List Token} (h : Completes text ts) : Lexes text ts := by
  intro done rest _
  rw [List.foldl_append, h]

theorem append_lexes {front back : List UInt8} {ts us : List Token} (hf : Completes front ts)
    (hb : Lexes back us) : Lexes (front ++ back) (ts ++ us) := by
  intro done rest hr
  rw [List.append_assoc, List.foldl_append, hf, hb _ rest hr, List.reverse_append,
    List.append_assoc]

theorem comma : Completes [0x2C] [.comma] := fun _ => rfl

theorem openList : Completes [0x5B] [.openList] := fun _ => rfl

theorem closeList : Completes [0x5D] [.closeList] := fun _ => rfl

theorem openObject : Completes [0x7B] [.openObject] := fun _ => rfl

theorem closeObject : Completes [0x7D] [.closeObject] := fun _ => rfl

theorem colon : Completes [0x3A] [.colon] := fun _ => rfl

theorem blank {gap : List UInt8} (h : Blank gap) : Completes gap [] := by
  induction gap with
  | nil => exact nil
  | cons b gap ih =>
    obtain ⟨hb, hgap⟩ := List.forall_mem_cons.1 h
    have hone : Completes [b] [] := by
      obtain rfl | rfl | rfl | rfl := hb <;> exact fun _ => rfl
    exact hone.append (ih hgap)

end Completes

theorem Apart.blank {gap : List UInt8} (h : Blank gap) : Apart gap := by
  cases gap with
  | nil => exact .nil
  | cons b gap =>
    obtain rfl | rfl | rfl | rfl := h b List.mem_cons_self <;> exact .cons _ rfl

theorem hexDigit?_of_hexDigit {d : Nat} {b : UInt8} (h : HexDigit d b) :
    Token.hexDigit? b = some d := by
  have hdecimal : ∀ d : Fin 10, Token.hexDigit? (UInt8.ofNat (0x30 + d)) = some d.val := by decide
  have hlower : ∀ d : Fin 6, Token.hexDigit? (UInt8.ofNat (0x61 + d)) = some (10 + d.val) := by decide
  have hupper : ∀ d : Fin 6, Token.hexDigit? (UInt8.ofNat (0x41 + d)) = some (10 + d.val) := by decide
  cases h with
  | @decimal d hd => exact hdecimal ⟨d, hd⟩
  | @lower d hd => exact hlower ⟨d, hd⟩
  | @upper d hd => exact hupper ⟨d, hd⟩

/-- A text that is read to its end where a character of a string may start. -/
def Inside (text : List UInt8) : Prop :=
  ∀ (done : List Token) (inside : List UInt8), text.foldl step ⟨done, .string inside .plain⟩ =
    ⟨done, .string (text.reverse ++ inside) .plain⟩

theorem Inside.nil : Inside [] := fun _ _ => rfl

theorem Inside.append {front back : List UInt8} (hf : Inside front) (hb : Inside back) :
    Inside (front ++ back) := by
  intro done inside
  rw [List.foldl_append, hf, hb, List.reverse_append, List.append_assoc]

/-- Bytes other than quotes, backslashes and control characters are parts of a string. -/
theorem Inside.plain {text : List UInt8} (h : ∀ b ∈ text, b ≠ 0x22 ∧ b ≠ 0x5C ∧ ¬b < 0x20) :
    Inside text := by
  induction text with
  | nil => exact .nil
  | cons b text ih =>
    obtain ⟨⟨hquote, hslash, hlow⟩, htext⟩ := List.forall_mem_cons.1 h
    have hb : Inside [b] := by
      intro done inside
      simp [step, stepString, hquote, hslash, hlow]
    exact hb.append (ih htext)

theorem Inside.unit {n : Nat} {text : List UInt8} (h : SpellsUnit n text) : Inside text := by
  obtain ⟨ha, hb, hc, hd⟩ := h
  intro done inside
  simp [step, stepString, hexDigit?_of_hexDigit ha, hexDigit?_of_hexDigit hb,
    hexDigit?_of_hexDigit hc, hexDigit?_of_hexDigit hd]

theorem plain_of_mem_utf8EncodeChar {c : Char} (hvisible : 0x20 ≤ c.toNat) (hquote : c.toNat ≠ 0x22)
    (hslash : c.toNat ≠ 0x5C) :
    ∀ b ∈ String.utf8EncodeChar c, b ≠ 0x22 ∧ b ≠ 0x5C ∧ ¬b < 0x20 := by
  intro b hb
  rcases Nat.lt_or_ge c.toNat 128 with hlow | hhigh
  · rw [Text.utf8EncodeChar_of_lt hlow, List.mem_singleton] at hb
    have hnat : b.toNat = c.toNat := by
      rw [hb, UInt8.toNat_ofNat']
      omega
    simp only [ne_eq, ← UInt8.toNat_inj, UInt8.lt_iff_toNat_lt, hnat]
    exact ⟨hquote, hslash, Nat.not_lt.2 hvisible⟩
  · have hle := UInt8.le_iff_toNat_le.1 (Text.le_of_mem_utf8EncodeChar hhigh b hb)
    simp only [ne_eq, ← UInt8.toNat_inj, UInt8.lt_iff_toNat_lt, UInt8.reduceToNat] at hle ⊢
    omega

theorem shortEscapes_escaped : ∀ e ∈ shortEscapes,
    e.1 < 128 ∧ e.2 ≠ 0x75 ∧ Token.escaped? e.2 = some (UInt8.ofNat e.1) := by decide

theorem Inside.char {c : Char} {text : List UInt8} (h : SpellsChar c text) : Inside text := by
  cases h with
  | plain hvisible hquote hslash =>
    exact .plain (plain_of_mem_utf8EncodeChar hvisible hquote hslash)
  | short h =>
    obtain ⟨-, hu, hescaped⟩ := shortEscapes_escaped _ h
    intro done inside
    simp [step, stepString, hu, hescaped]
  | unit h => exact .unit h
  | surrogates hc hhigh hlow => exact (Inside.unit hhigh).append (.unit hlow)

theorem Inside.chars {cs : List Char} {text : List UInt8} (h : SpellsChars cs text) : Inside text := by
  induction h with
  | nil => exact .nil
  | cons hc hcs ih => exact (Inside.char hc).append ih

/-- A part of a string that stands for some bytes. -/
def Stands (text bytes : List UInt8) : Prop :=
  ∀ (last : Option ReadFault) (done rest : List UInt8),
    Token.unescape last done (text ++ rest) = Token.unescape last (bytes.reverse ++ done) rest

theorem Stands.append {front back bytes more : List UInt8} (hf : Stands front bytes)
    (hb : Stands back more) : Stands (front ++ back) (bytes ++ more) := by
  intro last done rest
  rw [List.append_assoc, hf, hb, List.reverse_append, List.append_assoc]

theorem Stands.plain {text : List UInt8} (h : ∀ b ∈ text, b ≠ 0x5C) : Stands text text := by
  induction text with
  | nil => exact fun _ _ _ => rfl
  | cons b text ih =>
    obtain ⟨hslash, htext⟩ := List.forall_mem_cons.1 h
    have hb : Stands [b] [b] := by
      intro last done rest
      simp [Token.unescape, hslash]
    exact hb.append (ih htext)

theorem codePoint_toNat (c : Char) : Token.codePoint c.toNat = String.utf8EncodeChar c := by
  rw [Token.codePoint, Char.ofNat_toNat, Text.utf8_eq_flatMap]
  simp

/-- The code point of a character is no surrogate. -/
theorem toNat_plane (c : Char) : c.toNat < 0xD800 ∨ 0xE000 ≤ c.toNat := by
  rcases c.valid with h | ⟨h, -⟩
  · exact .inl h
  · exact .inr (by exact h)

theorem exists_unit? {n : Nat} {text : List UInt8} (h : SpellsUnit n text) :
    ∃ a b c d, text = [0x5C, 0x75, a, b, c, d] ∧ Token.unit? a b c d = some n := by
  obtain ⟨ha, hb, hc, hd⟩ := h
  refine ⟨_, _, _, _, rfl, ?_⟩
  simp [Token.unit?, hexDigit?_of_hexDigit ha, hexDigit?_of_hexDigit hb, hexDigit?_of_hexDigit hc,
    hexDigit?_of_hexDigit hd]

theorem Stands.char {c : Char} {text : List UInt8} (h : SpellsChar c text) :
    Stands text (String.utf8EncodeChar c) := by
  cases h with
  | plain hvisible hquote hslash =>
    exact .plain fun b hb => (plain_of_mem_utf8EncodeChar hvisible hquote hslash b hb).2.1
  | short h =>
    obtain ⟨hlow, hu, hescaped⟩ := shortEscapes_escaped _ h
    intro last done rest
    rw [Text.utf8EncodeChar_of_lt hlow]
    simp [Token.unescape, hu, hescaped]
  | unit h =>
    obtain ⟨a, b, c', d, rfl, hunit⟩ := exists_unit? h
    intro last done rest
    simp only [List.cons_append, List.nil_append]
    rw [Token.unescape, hunit]
    dsimp only
    rw [if_pos (toNat_plane c), codePoint_toNat]
  | surrogates hc hhigh hlow =>
    obtain ⟨a, b, c', d, rfl, hunit⟩ := exists_unit? hhigh
    obtain ⟨a', b', c'', d', rfl, hunit'⟩ := exists_unit? hlow
    have hmax : c.toNat < 0x110000 := by
      rcases c.valid with h | ⟨-, h⟩
      · exact Nat.lt_trans h (by decide)
      · exact h
    intro last done rest
    simp only [List.cons_append, List.nil_append]
    rw [Token.unescape, hunit]
    dsimp only
    -- The first unit is an upper surrogate and the second a lower one, ten bits each.
    rw [if_neg (by omega), if_neg (by omega)]
    simp only [hunit']
    have hcode : 0x10000 + (0xD800 + (c.toNat - 0x10000) / 0x400 - 0xD800) * 0x400 +
        (0xDC00 + (c.toNat - 0x10000) % 0x400 - 0xDC00) = c.toNat := by omega
    rw [if_neg (by omega), hcode, codePoint_toNat]

theorem Stands.chars {cs : List Char} {text : List UInt8} (h : SpellsChars cs text) :
    Stands text (cs.flatMap String.utf8EncodeChar) := by
  induction h with
  | nil => exact fun _ _ _ => rfl
  | cons hc hcs ih => exact (Stands.char hc).append ih

theorem Completes.string {s : String} {text : List UInt8} (h : SpellsString s text) :
    Completes text [.string (.ok s) none] := by
  cases h with
  | @quoted inside hinside =>
    have hvalue : Token.ofInside inside none = .string (.ok s) none := by
      have hbytes := Stands.chars hinside none [] []
      rw [List.append_nil, List.append_nil, Token.unescape, List.reverse_reverse,
        ← Text.utf8_eq_flatMap] at hbytes
      simp [Token.ofInside, hbytes, Text.ofUtf8?_utf8, bind, Except.bind]
    intro done
    have hopen : step ⟨done, .gap⟩ 0x22 = ⟨done, .string [] .plain⟩ := rfl
    have hclose : ∀ inside, step ⟨done, .string inside .plain⟩ 0x22 =
        emit done (Token.ofInside inside.reverse none) .gap := fun _ => rfl
    rw [List.append_assoc, List.singleton_append, List.foldl_cons, hopen, List.foldl_append,
      Inside.chars hinside, List.append_nil, List.foldl_cons, List.foldl_nil, hclose,
      List.reverse_reverse, hvalue]
    rfl

def wholeNumeral (negative : Bool) (digits : List Nat) : Numeral := ⟨negative, digits, [], none⟩

theorem digit?_digitByte {d : Nat} (h : d < 10) : digit? (Text.digitByte d) = some d := by
  have hall : ∀ m : Fin 10, digit? (Text.digitByte m) = some m.val := by decide
  exact hall ⟨d, h⟩

def mayEnd : NumberPhase → Bool
  | .zero | .whole | .fraction | .exponent => true
  | .sign | .point | .mark | .markSign => false

/-- A number is complete in front of a text that does not go on with it. -/
theorem finish_number (done : List Token) (n : Numeral) {phase : NumberPhase}
    (hp : mayEnd phase = true) {rest : List UInt8} (hr : Apart rest) :
    (rest.foldl step ⟨done, .number n phase⟩).finish =
      (rest.foldl step ⟨Token.ofNumeral (finishNumeral n) :: done, .gap⟩).finish := by
  cases rest with
  | nil => cases phase <;> cases hp <;> rfl
  | cons b rest =>
    have hb : ends b = true := hr b rfl
    simp only [ends, Bool.and_eq_true, Option.isNone_iff_eq_none, bne_iff_ne] at hb
    obtain ⟨⟨⟨hdigit, hpoint⟩, hsmall⟩, hlarge⟩ := hb
    have hstep : step ⟨done, .number n phase⟩ b =
        step ⟨Token.ofNumeral (finishNumeral n) :: done, .gap⟩ b := by
      cases phase <;> cases hp <;>
        simp [step, stepNumber, hdigit, hpoint, hsmall, hlarge, endNumber]
    rw [List.foldl_cons, List.foldl_cons, hstep]

/-- Digits in a row are read to their end, if the first one is and others may follow it. -/
theorem foldl_digits (numeral : List Nat → Numeral) {start : Lexer} {done : List Token}
    {phase : NumberPhase} {d : Nat} {ds : List Nat}
    (hfirst : step start (Text.digitByte d) = ⟨done, .number (numeral [d]) phase⟩)
    (hnext : ∀ (read : List Nat) (e : Nat), e < 10 →
      step ⟨done, .number (numeral read) phase⟩ (Text.digitByte e) =
        ⟨done, .number (numeral (e :: read)) phase⟩)
    (h : ∀ e ∈ ds, e < 10) :
    ((d :: ds).map Text.digitByte).foldl step start =
      ⟨done, .number (numeral (d :: ds).reverse) phase⟩ := by
  have hall : ∀ read, (ds.map Text.digitByte).foldl step ⟨done, .number (numeral read) phase⟩ =
      ⟨done, .number (numeral (ds.reverse ++ read)) phase⟩ := by
    induction ds with
    | nil => exact fun _ => rfl
    | cons e ds ih =>
      obtain ⟨he, hds⟩ := List.forall_mem_cons.1 h
      intro read
      rw [List.map_cons, List.foldl_cons, hnext read e he, ih hds, List.reverse_cons,
        List.append_assoc, List.singleton_append]
  rw [List.map_cons, List.foldl_cons, hfirst, hall, List.reverse_cons]

def firstPhase (d : Nat) : NumberPhase := if d = 0 then .zero else .whole

/-- Where a number may start, its whole part is read to its end. -/
theorem foldl_whole {whole : List Nat} (h : IsDigits whole) (hzero : whole.head? = some 0 → whole = [0])
    {start : Lexer} {done : List Token} {negative : Bool}
    (hstart : ∀ d, d < 10 → step start (Text.digitByte d) =
      ⟨done, .number (wholeNumeral negative [d]) (firstPhase d)⟩) :
    ∃ phase, (phase = .zero ∨ phase = .whole) ∧ (whole.map Text.digitByte).foldl step start =
      ⟨done, .number (wholeNumeral negative whole.reverse) phase⟩ := by
  obtain ⟨hne, hlt⟩ := h
  obtain ⟨d, ds, rfl⟩ := List.exists_cons_of_ne_nil hne
  obtain ⟨hd, hds⟩ := List.forall_mem_cons.1 hlt
  rcases Nat.eq_zero_or_pos d with rfl | hpos
  · cases hzero rfl
    exact ⟨.zero, .inl rfl, hstart 0 hd⟩
  · have hfirst := hstart d hd
    rw [firstPhase, if_neg (by omega)] at hfirst
    refine ⟨.whole, .inr rfl, foldl_digits (wholeNumeral negative) hfirst (fun read e he => ?_) hds⟩
    simp [step, stepNumber, digit?_digitByte he, wholeNumeral]

theorem foldl_fraction {fraction : List Nat} {text : List UInt8} (h : SpellsFraction fraction text)
    (done : List Token) (negative : Bool) (whole : List Nat) {phase : NumberPhase}
    (hp : phase = .zero ∨ phase = .whole) :
    ∃ phase', (phase' = .zero ∨ phase' = .whole ∨ phase' = .fraction) ∧
      text.foldl step ⟨done, .number (wholeNumeral negative whole) phase⟩ =
        ⟨done, .number ⟨negative, whole, fraction.reverse, none⟩ phase'⟩ := by
  cases h with
  | none => exact ⟨phase, hp.imp_right .inl, rfl⟩
  | some h =>
    obtain ⟨hne, hlt⟩ := h
    obtain ⟨d, ds, rfl⟩ := List.exists_cons_of_ne_nil hne
    obtain ⟨hd, hds⟩ := List.forall_mem_cons.1 hlt
    have hpoint : step ⟨done, .number (wholeNumeral negative whole) phase⟩ 0x2E =
        ⟨done, .number (wholeNumeral negative whole) .point⟩ := by
      obtain rfl | rfl := hp <;> rfl
    refine ⟨.fraction, .inr (.inr rfl), ?_⟩
    rw [List.singleton_append, List.foldl_cons, hpoint]
    refine foldl_digits (fun read => ⟨negative, whole, read, none⟩) ?_
      (fun read e he => ?_) hds
    · simp [step, stepNumber, digit?_digitByte hd, wholeNumeral]
    · simp [step, stepNumber, digit?_digitByte he]

theorem foldl_exponent {exponent : Option (Bool × List Nat)} {text : List UInt8}
    (h : SpellsExponent exponent text) (done : List Token) (negative : Bool)
    (whole fraction : List Nat) {phase : NumberPhase}
    (hp : phase = .zero ∨ phase = .whole ∨ phase = .fraction) :
    ∃ phase', mayEnd phase' = true ∧
      text.foldl step ⟨done, .number ⟨negative, whole, fraction, none⟩ phase⟩ =
        ⟨done, .number ⟨negative, whole, fraction, exponent.map fun e => (e.1, e.2.reverse)⟩
          phase'⟩ := by
  cases h with
  | none =>
    refine ⟨phase, ?_, rfl⟩
    obtain rfl | rfl | rfl := hp <;> rfl
  | @some mark minus sign ds hmark hsign h =>
    obtain ⟨hne, hlt⟩ := h
    obtain ⟨d, ds, rfl⟩ := List.exists_cons_of_ne_nil hne
    obtain ⟨hd, hds⟩ := List.forall_mem_cons.1 hlt
    have hmarked : step ⟨done, .number ⟨negative, whole, fraction, none⟩ phase⟩ mark =
        ⟨done, .number ⟨negative, whole, fraction, some (false, [])⟩ .mark⟩ := by
      obtain rfl | rfl | rfl := hp <;> obtain rfl | rfl := hmark <;> rfl
    obtain ⟨next, hnext, hsigned⟩ : ∃ next, (next = .mark ∨ next = .markSign) ∧
        sign.foldl step ⟨done, .number ⟨negative, whole, fraction, some (false, [])⟩ .mark⟩ =
          ⟨done, .number ⟨negative, whole, fraction, some (minus, [])⟩ next⟩ := by
      cases hsign with
      | none => exact ⟨.mark, .inl rfl, rfl⟩
      | plus => exact ⟨.markSign, .inr rfl, rfl⟩
      | minus => exact ⟨.markSign, .inr rfl, rfl⟩
    refine ⟨.exponent, rfl, ?_⟩
    rw [List.append_assoc, List.singleton_append, List.foldl_cons, hmarked, List.foldl_append, hsigned]
    refine foldl_digits (fun read => ⟨negative, whole, fraction, some (minus, read)⟩) ?_
      (fun read e he => ?_) hds
    · obtain rfl | rfl := hnext <;>
        simp [step, stepNumber, digit?_digitByte hd, addExponentDigit]
    · simp [step, stepNumber, digit?_digitByte he, addExponentDigit]

theorem Lexes.numeral {n : Numeral} {text : List UInt8} (h : SpellsNumeral n text) :
    Lexes text [Token.ofNumeral n] := by
  cases h with
  | @intro negative whole fraction exponent point power hwhole hzero hfraction hexponent =>
    intro done rest hr
    have hstart : ∀ d, d < 10 →
        step ((if negative then [0x2D] else []).foldl step ⟨done, .gap⟩) (Text.digitByte d) =
          ⟨done, .number (wholeNumeral negative [d]) (firstPhase d)⟩ := by
      intro d hd
      cases negative <;> interval_cases d <;> rfl
    obtain ⟨phase, hp, hreadWhole⟩ := foldl_whole hwhole hzero hstart
    obtain ⟨phase', hp', hreadFraction⟩ := foldl_fraction hfraction done negative whole.reverse hp
    obtain ⟨last, hlast, hreadExponent⟩ :=
      foldl_exponent hexponent done negative whole.reverse fraction.reverse hp'
    have hdone : finishNumeral ⟨negative, whole.reverse, fraction.reverse,
        exponent.map fun e => (e.1, e.2.reverse)⟩ = ⟨negative, whole, fraction, exponent⟩ := by
      simp [finishNumeral, Function.comp_def]
    rw [List.foldl_append, List.foldl_append, List.foldl_append, List.foldl_append, hreadWhole,
      hreadFraction, hreadExponent, finish_number done _ hlast hr, hdone]
    rfl

/-- The digits of a number are read as far as they stay within the limit. -/
theorem extend_eq {limit : Nat} {ds : List Nat} {n : Nat}
    (h : ds.foldl (fun acc d => acc * 10 + d) n ≤ limit) :
    Numeral.extend limit n ds = (ds.foldl (fun acc d => acc * 10 + d) n, 0) := by
  have grows : ∀ (ds : List Nat) (n : Nat), n ≤ ds.foldl (fun acc d => acc * 10 + d) n := by
    intro ds
    induction ds with
    | nil => exact fun n => Nat.le_refl n
    | cons d ds ih =>
      intro n
      have := ih (n * 10 + d)
      rw [List.foldl_cons]
      omega
  induction ds generalizing n with
  | nil => rfl
  | cons d ds ih =>
    rw [List.foldl_cons] at h
    rw [Numeral.extend, if_pos (Nat.le_trans (grows ds _) h), ih h, List.foldl_cons]

theorem value_decimals {n : Nat} (h : n < 0x10000000000000000) :
    (wholeNumeral false (Text.decimals n)).value = .ok (.int n) := by
  have hn := Text.foldl_decimals n
  have hextend : Numeral.extend Numeral.maxWord 0 (Text.decimals n) = (n, 0) := by
    rw [extend_eq (by rw [hn, Numeral.maxWord, UInt64.size]; omega), hn]
  simp [Numeral.value, wholeNumeral, hextend]

theorem value_negative_decimals {n : Nat} (h0 : 0 < n) (h : n ≤ 0x8000000000000000) :
    (wholeNumeral true (Text.decimals n)).value = .ok (.int (-n)) := by
  have hn := Text.foldl_decimals n
  have hextend : Numeral.extend Numeral.maxWord 0 (Text.decimals n) = (n, 0) := by
    rw [extend_eq (by rw [hn, Numeral.maxWord, UInt64.size]; omega), hn]
  have hfits : n ≠ 0 ∧ n ≤ Nat.pow 2 63 := ⟨by omega, h⟩
  simp [Numeral.value, wholeNumeral, hextend, hfits]

theorem writeInt_eq (n : Int) :
    writeInt n = Text.utf8 (if n < 0 then "-" ++ Nat.repr n.natAbs else Nat.repr n.toNat) := rfl

theorem spellsNumeral_decimals (negative : Bool) (n : Nat) :
    SpellsNumeral (wholeNumeral negative (Text.decimals n))
      ((if negative then [0x2D] else []) ++ Text.utf8 (Nat.repr n)) := by
  have hlt : ∀ d ∈ Text.decimals n, d < 10 := fun d hd => Text.lt_of_mem_decimals hd
  have hdigits : IsDigits (Text.decimals n) ∧
      ((Text.decimals n).head? = some 0 → Text.decimals n = [0]) := by
    rcases Nat.eq_zero_or_pos n with rfl | hn
    · rw [Text.decimals_zero] at hlt ⊢
      exact ⟨⟨by simp, hlt⟩, fun _ => rfl⟩
    · obtain ⟨d, ds, hds, hd⟩ := Text.decimals_eq_cons hn
      rw [hds] at hlt ⊢
      refine ⟨⟨by simp, hlt⟩, fun hzero => ?_⟩
      rw [List.head?_cons, Option.some_inj] at hzero
      omega
  have hspells : SpellsNumeral (wholeNumeral negative (Text.decimals n)) _ :=
    .intro hdigits.1 hdigits.2 .none .none
  rwa [List.append_nil, List.append_nil, ← Text.utf8_repr] at hspells

theorem Lexes.int {n : Int} (h : -0x8000000000000000 ≤ n ∧ n < 0x10000000000000000) :
    Lexes (writeInt n) [.number (.ok (.int n)) none] := by
  by_cases hn : n < 0
  · have hsign : Text.utf8 "-" = [0x2D] := by decide
    have habs : -(n.natAbs : Int) = n := by omega
    have hlexes := Lexes.numeral (spellsNumeral_decimals true n.natAbs)
    rw [Token.ofNumeral, value_negative_decimals (by omega) (by omega), habs] at hlexes
    rwa [writeInt_eq, if_pos hn, Text.utf8_append, hsign]
  · have hlexes := Lexes.numeral (spellsNumeral_decimals false n.toNat)
    rw [Token.ofNumeral, value_decimals (by omega), Int.toNat_of_nonneg (by omega)] at hlexes
    rwa [writeInt_eq, if_neg hn]

end Lexer

end TraceJournal.Json
