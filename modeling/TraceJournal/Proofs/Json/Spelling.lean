import TraceJournal.Json.Number
import TraceJournal.Json.Printer
import TraceJournal.Proofs.Text.Digits

/-!
# Spelling of JSON

Which texts are JSON text of a value, by the grammar of JSON and without regard to a reader. A value
has many texts: blanks may stand between any two tokens, a character may be written as it is or by an
escape, and a floating point number with any digits that are rounded to it. The members of an object
are its members in the order of the text, and several may have one name.
-/
namespace TraceJournal.Json

def Blank (text : List UInt8) : Prop := ∀ b ∈ text, b = 0x20 ∨ b = 0x0A ∨ b = 0x0D ∨ b = 0x09

inductive HexDigit : Nat → UInt8 → Prop
  | decimal {d : Nat} (h : d < 10) : HexDigit d (UInt8.ofNat (0x30 + d))
  | lower {d : Nat} (h : d < 6) : HexDigit (10 + d) (UInt8.ofNat (0x61 + d))
  | upper {d : Nat} (h : d < 6) : HexDigit (10 + d) (UInt8.ofNat (0x41 + d))

inductive SpellsUnit : Nat → List UInt8 → Prop
  | escape {a b c d : Nat} {wa wb wc wd : UInt8} (ha : HexDigit a wa) (hb : HexDigit b wb)
      (hc : HexDigit c wc) (hd : HexDigit d wd) :
      SpellsUnit (((a * 16 + b) * 16 + c) * 16 + d) [0x5C, 0x75, wa, wb, wc, wd]

/-- The characters that have an escape of one letter, each with that letter. -/
def shortEscapes : List (Nat × UInt8) :=
  [(0x22, 0x22), (0x5C, 0x5C), (0x2F, 0x2F), (0x08, 0x62), (0x0C, 0x66), (0x0A, 0x6E), (0x0D, 0x72),
    (0x09, 0x74)]

/-- A character of a string, as it is or by an escape. One that needs more than 16 bits is escaped as
two surrogates. -/
inductive SpellsChar (c : Char) : List UInt8 → Prop
  | plain (hvisible : 0x20 ≤ c.toNat) (hquote : c.toNat ≠ 0x22) (hslash : c.toNat ≠ 0x5C) :
      SpellsChar c (String.utf8EncodeChar c)
  | short {letter : UInt8} (h : (c.toNat, letter) ∈ shortEscapes) : SpellsChar c [0x5C, letter]
  | unit {text : List UInt8} (h : SpellsUnit c.toNat text) : SpellsChar c text
  | surrogates {high low : List UInt8} (hc : 0x10000 ≤ c.toNat)
      (hhigh : SpellsUnit (0xD800 + (c.toNat - 0x10000) / 0x400) high)
      (hlow : SpellsUnit (0xDC00 + (c.toNat - 0x10000) % 0x400) low) : SpellsChar c (high ++ low)

inductive SpellsChars : List Char → List UInt8 → Prop
  | nil : SpellsChars [] []
  | cons {c : Char} {cs : List Char} {text rest : List UInt8} (hc : SpellsChar c text)
      (hcs : SpellsChars cs rest) : SpellsChars (c :: cs) (text ++ rest)

inductive SpellsString (s : String) : List UInt8 → Prop
  | quoted {inside : List UInt8} (h : SpellsChars s.toList inside) :
      SpellsString s ([0x22] ++ inside ++ [0x22])

def IsDigits (ds : List Nat) : Prop := ds ≠ [] ∧ ∀ d ∈ ds, d < 10

inductive SpellsFraction : List Nat → List UInt8 → Prop
  | none : SpellsFraction [] []
  | some {ds : List Nat} (h : IsDigits ds) : SpellsFraction ds ([0x2E] ++ ds.map Text.digitByte)

/-- The sign of an exponent, which may be left out. -/
inductive SpellsSign : Bool → List UInt8 → Prop
  | none : SpellsSign false []
  | plus : SpellsSign false [0x2B]
  | minus : SpellsSign true [0x2D]

inductive SpellsExponent : Option (Bool × List Nat) → List UInt8 → Prop
  | none : SpellsExponent none []
  | some {mark : UInt8} {negative : Bool} {sign : List UInt8} {ds : List Nat}
      (hmark : mark = 0x65 ∨ mark = 0x45) (hsign : SpellsSign negative sign) (h : IsDigits ds) :
      SpellsExponent (some (negative, ds)) ([mark] ++ sign ++ ds.map Text.digitByte)

/-- A number by its digits. The whole part starts with a zero only if it is one. -/
inductive SpellsNumeral : Numeral → List UInt8 → Prop
  | intro {negative : Bool} {whole fraction : List Nat} {exponent : Option (Bool × List Nat)}
      {point power : List UInt8} (hwhole : IsDigits whole)
      (hzero : whole.head? = some 0 → whole = [0]) (hfraction : SpellsFraction fraction point)
      (hexponent : SpellsExponent exponent power) :
      SpellsNumeral ⟨negative, whole, fraction, exponent⟩
        ((if negative then [0x2D] else []) ++ whole.map Text.digitByte ++ point ++ power)

/-- A comma or a colon with blanks around it. -/
inductive Separator (b : UInt8) : List UInt8 → Prop
  | blanks {before after : List UInt8} (hbefore : Blank before) (hafter : Blank after) :
      Separator b (before ++ [b] ++ after)

mutual

/-- A value from its first byte to its last. An integer has to fit a word with or without a sign;
what does not, and what has a fraction or an exponent, is a floating point number. -/
inductive Spells : Value → List UInt8 → Prop
  | null : Spells .null [0x6E, 0x75, 0x6C, 0x6C]
  | false : Spells (.bool false) [0x66, 0x61, 0x6C, 0x73, 0x65]
  | true : Spells (.bool true) [0x74, 0x72, 0x75, 0x65]
  | int {n : Int} (h : -0x8000000000000000 ≤ n ∧ n < 0x10000000000000000) :
      Spells (.int n) (writeInt n)
  | float {n : Numeral} {x : Float} {text : List UInt8} (h : SpellsNumeral n text)
      (hvalue : n.value = .ok (.float x)) : Spells (.float x) text
  | text {s : String} {text : List UInt8} (h : SpellsString s text) : Spells (.text s) text
  | emptyList {gap : List UInt8} (h : Blank gap) : Spells (.list []) ([0x5B] ++ gap ++ [0x5D])
  | list {item : Value} {items : List Value} {before first rest after : List UInt8}
      (hbefore : Blank before) (hitem : Spells item first) (hitems : SpellsItems items rest)
      (hafter : Blank after) :
      Spells (.list (item :: items)) ([0x5B] ++ before ++ first ++ rest ++ after ++ [0x5D])
  | emptyObject {gap : List UInt8} (h : Blank gap) : Spells (.object []) ([0x7B] ++ gap ++ [0x7D])
  | object {m : String × Value} {members : List (String × Value)}
      {before first rest after : List UInt8} (hbefore : Blank before) (hm : SpellsMember m first)
      (hmembers : SpellsMembers members rest) (hafter : Blank after) :
      Spells (.object (m :: members)) ([0x7B] ++ before ++ first ++ rest ++ after ++ [0x7D])

inductive SpellsItems : List Value → List UInt8 → Prop
  | noItem : SpellsItems [] []
  | item {item : Value} {items : List Value} {comma text rest : List UInt8}
      (hcomma : Separator 0x2C comma) (hitem : Spells item text) (hitems : SpellsItems items rest) :
      SpellsItems (item :: items) (comma ++ text ++ rest)

inductive SpellsMember : String × Value → List UInt8 → Prop
  | named {name : String} {value : Value} {quoted colon text : List UInt8}
      (hname : SpellsString name quoted) (hcolon : Separator 0x3A colon)
      (hvalue : Spells value text) : SpellsMember (name, value) (quoted ++ colon ++ text)

inductive SpellsMembers : List (String × Value) → List UInt8 → Prop
  | noMember : SpellsMembers [] []
  | member {m : String × Value} {members : List (String × Value)} {comma text rest : List UInt8}
      (hcomma : Separator 0x2C comma) (hm : SpellsMember m text)
      (hmembers : SpellsMembers members rest) :
      SpellsMembers (m :: members) (comma ++ text ++ rest)

end

/-- A whole text that holds one value, which may have blanks around it. -/
inductive IsText (v : Value) : List UInt8 → Prop
  | padded {before text after : List UInt8} (hbefore : Blank before) (h : Spells v text)
      (hafter : Blank after) : IsText v (before ++ text ++ after)

end TraceJournal.Json
