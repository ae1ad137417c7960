import TraceJournal.Proofs.Json.Lexing

/-!
# The tokens of JSON text

A text of a value reads as the tokens of that value. They are the same for all its texts.
-/
namespace TraceJournal.Json

mutual

def tokensOf : Value → List Token
  | .null => [.null]
  | .bool b => [.bool b]
  | .int n => [.number (.ok (.int n)) none]
  | .float x => [.number (.ok (.float x)) none]
  | .text s => [.string (.ok s) none]
  | .list [] => [.openList, .closeList]
  | .list (item :: items) => [.openList] ++ tokensOf item ++ tokensOfItems items ++ [.closeList]
  | .object [] => [.openObject, .closeObject]
  | .object ((name, value) :: members) =>
    [.openObject, .string (.ok name) none, .colon] ++ tokensOf value ++ tokensOfMembers members ++
      [.closeObject]

def tokensOfItems : List Value → List Token
  | [] => []
  | item :: items => [.comma] ++ tokensOf item ++ tokensOfItems items

def tokensOfMembers : List (String × Value) → List Token
  | [] => []
  | (name, value) :: members =>
    [.comma, .string (.ok name) none, .colon] ++ tokensOf value ++ tokensOfMembers members

end

namespace Lexer

theorem Completes.separator {b : UInt8} {text : List UInt8} {ts : List Token}
    (h : Separator b text) (hb : Completes [b] ts) : Completes text ts := by
  obtain ⟨hbefore, hafter⟩ := h
  simpa using ((Completes.blank hbefore).append hb).append (.blank hafter)

theorem Apart.separator {b : UInt8} {text : List UInt8} (h : Separator b text) (hb : ends b = true)
    (rest : List UInt8) : Apart (text ++ rest) := by
  obtain ⟨hbefore, -⟩ := h
  rw [List.append_assoc, List.append_assoc]
  exact (Apart.blank hbefore).append (.cons _ hb)

theorem Apart.items {items : List Value} {text : List UInt8} (h : SpellsItems items text) :
    Apart text := by
  cases h with
  | noItem => exact .nil
  | item hcomma =>
    rw [List.append_assoc]
    exact .separator hcomma rfl _

theorem Apart.members {members : List (String × Value)} {text : List UInt8}
    (h : SpellsMembers members text) : Apart text := by
  cases h with
  | noMember => exact .nil
  | member hcomma =>
    rw [List.append_assoc]
    exact .separator hcomma rfl _

/-- A value reads as its tokens. -/
theorem Lexes.spells {v : Value} {text : List UInt8} (h : Spells v text) :
    Lexes text (tokensOf v) := by
  -- On how the value is spelled: its parts, the items and the members each read as tokens of their own.
  induction h using Spells.rec
    (motive_2 := fun items text _ => Lexes text (tokensOfItems items))
    (motive_3 := fun m text _ => Lexes text ([.string (.ok m.1) none, .colon] ++ tokensOf m.2))
    (motive_4 := fun members text _ => Lexes text (tokensOfMembers members)) with
  | null => exact Completes.lexes fun _ => rfl
  | false => exact Completes.lexes fun _ => rfl
  | true => exact Completes.lexes fun _ => rfl
  | int h => exact .int h
  | float h hvalue =>
    rw [tokensOf, ← hvalue]
    exact .numeral h
  | text h => exact (Completes.string h).lexes
  | emptyList h => exact ((Completes.openList.append (.blank h)).append .closeList).lexes
  | list hbefore hitem hitems hafter ihitem ihitems =>
    have hfront := (Completes.openList.append (.blank hbefore)).append_lexes ihitem
    have hbody := hfront.append ihitems (.items hitems)
    have hend := (Completes.blank hafter).append .closeList
    have hwhole := hbody.append hend.lexes ((Apart.blank hafter).append (.cons _ rfl))
    simpa [tokensOf] using hwhole
  | emptyObject h => exact ((Completes.openObject.append (.blank h)).append .closeObject).lexes
  | object hbefore hm hmembers hafter ihm ihmembers =>
    have hfront := (Completes.openObject.append (.blank hbefore)).append_lexes ihm
    have hbody := hfront.append ihmembers (.members hmembers)
    have hend := (Completes.blank hafter).append .closeObject
    have hwhole := hbody.append hend.lexes ((Apart.blank hafter).append (.cons _ rfl))
    simpa [tokensOf] using hwhole
  | noItem => exact Completes.nil.lexes
  | item hcomma hitem hitems ihitem ihitems =>
    have hfront := (Completes.separator hcomma .comma).append_lexes ihitem
    exact hfront.append ihitems (.items hitems)
  | named hname hcolon hvalue ih =>
    exact ((Completes.string hname).append (.separator hcolon .colon)).append_lexes ih
  | noMember => exact Completes.nil.lexes
  | member hcomma hm hmembers ihm ihmembers =>
    have hfront := (Completes.separator hcomma .comma).append_lexes ihm
    have hall := hfront.append ihmembers (.members hmembers)
    simpa [tokensOfMembers] using hall

end Lexer

theorem tokens_text {v : Value} {text : List UInt8} (h : IsText v text) : tokens text = tokensOf v := by
  obtain ⟨hbefore, hspells, hafter⟩ := h
  have hfront := (Lexer.Completes.blank hbefore).append_lexes (Lexer.Lexes.spells hspells)
  have hwhole := hfront.append (Lexer.Completes.blank hafter).lexes (.blank hafter)
  have hlexes := hwhole [] [] .nil
  rw [List.append_nil, List.foldl_nil] at hlexes
  rw [tokens, Lexer.start, hlexes, Lexer.finish]
  simp

end TraceJournal.Json
