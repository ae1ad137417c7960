import TraceJournal.Proofs.Text.Digits
import TraceJournal.Text.Blank
import TraceJournal.Text.Lines
import Mathlib.Tactic.SplitIfs

/-!
# Lines of text

Lines that are ended one after the other are found again, whether the last one is ended or not. Text
without control characters keeps to one line.
-/
namespace TraceJournal.Text

theorem le_of_mem_utf8EncodeChar {c : Char} (h : 128 ≤ c.toNat) :
    ∀ b ∈ String.utf8EncodeChar c, 0x80 ≤ b := by
  have hc : ¬c.val.toNat ≤ 127 := Nat.not_le_of_lt h
  rw [String.utf8EncodeChar, if_neg hc]
  split_ifs <;>
    simp only [List.forall_mem_cons, UInt8.le_iff_toNat_le, UInt8.toNat_ofNat', List.not_mem_nil,
      UInt8.reduceToNat, false_implies, implies_true, and_true] <;>
    omega

theorem newline_notMem_utf8 {text : String} (h : '\n' ∉ text.toList) : 0x0A ∉ utf8 text := by
  rw [utf8_eq_flatMap, List.mem_flatMap]
  rintro ⟨c, hc, hmem⟩
  rcases Nat.lt_or_ge c.toNat 128 with hlow | hhigh
  · rw [utf8EncodeChar_of_lt hlow, List.mem_singleton, ← UInt8.toNat_inj, UInt8.toNat_ofNat'] at hmem
    have hnewline : c.toNat = '\n'.toNat := by
      change 10 = c.toNat % 256 at hmem
      change c.toNat = 10
      omega
    exact h (Char.toNat_inj.1 hnewline ▸ hc)
  · exact absurd (le_of_mem_utf8EncodeChar hhigh _ hmem) (by decide)

def ended (lines : List (List UInt8)) : List UInt8 := lines.flatMap fun line => line ++ [0x0A]

theorem splitLines_done (line : List UInt8) (done : List (List UInt8)) (rest : List UInt8) :
    splitLines line done rest = done.reverse ++ splitLines line [] rest := by
  induction rest generalizing line done with
  | nil =>
    rw [splitLines, splitLines]
    split <;> simp
  | cons b rest ih =>
    rw [splitLines, splitLines]
    split
    · rw [ih, ih [] [line.reverse]]
      simp
    · exact ih (b :: line) done

/-- Pieces without an empty one at the end. -/
def withoutEmptyLast (pieces : List (List UInt8)) : List (List UInt8) :=
  if pieces.getLast? = some [] then pieces.dropLast else pieces

theorem withoutEmptyLast_append (front : List (List UInt8)) {pieces : List (List UInt8)}
    (h : pieces ≠ []) : withoutEmptyLast (front ++ pieces) = front ++ withoutEmptyLast pieces := by
  have hlast : (front ++ pieces).getLast? = pieces.getLast? := by
    rw [List.getLast?_append, Option.or_of_isSome (by simpa using h)]
  rw [withoutEmptyLast, withoutEmptyLast, hlast]
  split
  · exact List.dropLast_append_of_ne_nil h
  · rfl

theorem splitLines_eq (text line : List UInt8) :
    splitLines line [] text = withoutEmptyLast (text.splitOnPPrepend (· == 0x0A) line) := by
  induction text generalizing line with
  | nil =>
    rw [splitLines, List.splitOnPPrepend_nil, withoutEmptyLast]
    cases line <;> simp
  | cons b text ih =>
    rw [splitLines, List.splitOnPPrepend_cons_eq_if]
    by_cases hb : b = 0x0A
    · have hpieces : text.splitOnP (· == 0x0A) ≠ [] := List.splitOnP_ne_nil _ _
      rw [if_pos hb, if_pos (beq_iff_eq.2 hb), splitLines_done, ih, List.splitOnPPrepend_nil_right]
      exact (withoutEmptyLast_append [line.reverse] hpieces).symm
    · rw [if_neg hb, if_neg (by simpa using hb), ih]

/-- Lines are the pieces between newlines. -/
theorem lines_eq_splitOn (text : List UInt8) : lines text = withoutEmptyLast (text.splitOn 0x0A) :=
  splitLines_eq text []

theorem lines_append_newline (text more : List UInt8) :
    lines (text ++ [0x0A] ++ more) = text.splitOn 0x0A ++ lines more := by
  rw [lines_eq_splitOn, lines_eq_splitOn, List.append_assoc, List.singleton_append,
    List.splitOn_append_cons_self, withoutEmptyLast_append _ (List.splitOn_ne_nil _ _)]

theorem splitOn_eq_lines (text : List UInt8) :
    text.splitOn 0x0A = lines text ∨ text.splitOn 0x0A = lines text ++ [[]] := by
  rw [lines_eq_splitOn, withoutEmptyLast]
  split
  · next hlast =>
    rcases List.getLast?_eq_some_iff.1 hlast with ⟨front, hfront⟩
    rw [hfront, List.dropLast_concat]
    exact .inr rfl
  · exact .inl rfl

/-- A newline at the end ends the last line, or makes an empty one. -/
theorem lines_newline (text : List UInt8) :
    lines (text ++ [0x0A]) = lines text ∨ lines (text ++ [0x0A]) = lines text ++ [[]] := by
  have hempty : lines [] = [] := rfl
  have hpieces := lines_append_newline text []
  rw [List.append_nil, hempty, List.append_nil] at hpieces
  rw [hpieces]
  exact splitOn_eq_lines text

theorem lines_append {line : List UInt8} (h : 0x0A ∉ line) (rest : List UInt8) :
    lines (line ++ [0x0A] ++ rest) = line :: lines rest := by
  rw [lines_append_newline, List.splitOn_eq_singleton h, List.singleton_append]

theorem lines_ended {ls : List (List UInt8)} (h : ∀ line ∈ ls, 0x0A ∉ line) :
    lines (ended ls) = ls := by
  induction ls with
  | nil => rfl
  | cons line ls ih =>
    obtain ⟨hline, hls⟩ := List.forall_mem_cons.1 h
    rw [ended, List.flatMap_cons, lines_append hline]
    exact congrArg (line :: ·) (ih hls)

/-- Lines hold no newlines. They are the text again when each is ended, but for a newline that the
text may leave out after the last one. -/
theorem ended_splitLines (text line : List UInt8) (hline : 0x0A ∉ line) :
    (∀ l ∈ splitLines line [] text, 0x0A ∉ l) ∧
      (ended (splitLines line [] text) = line.reverse ++ text ∨
        ended (splitLines line [] text) = line.reverse ++ text ++ [0x0A]) := by
  induction text generalizing line with
  | nil =>
    rw [splitLines]
    split
    · next hempty =>
      rw [List.isEmpty_iff.1 hempty]
      exact ⟨by simp, .inl rfl⟩
    · exact ⟨by simpa using hline, .inr (by simp [ended])⟩
  | cons b text ih =>
    rw [splitLines]
    split
    · next hb =>
      rcases ih [] (by simp) with ⟨hlines, hended⟩
      rw [splitLines_done]
      refine ⟨by simpa [hline] using hlines, ?_⟩
      simpa [ended, hb] using hended
    · next hb =>
      have hlonger : 0x0A ∉ b :: line := by simp [Ne.symm hb, hline]
      have hrest := ih (b :: line) hlonger
      simpa using hrest

theorem ended_lines (text : List UInt8) : (∀ line ∈ lines text, 0x0A ∉ line) ∧
    (ended (lines text) = text ∨ ended (lines text) = text ++ [0x0A]) :=
  ended_splitLines text [] (by simp)

def behindLine (text : List UInt8) : List UInt8 := (text.dropWhile (· != 0x0A)).tail

theorem length_behindLine_lt {text : List UInt8} (h : text ≠ []) :
    (behindLine text).length < text.length := by
  have hpos := List.length_pos_iff.2 h
  have hrest : (text.dropWhile (· != 0x0A)).length ≤ text.length :=
    (List.dropWhile_suffix _).length_le
  rw [behindLine, List.length_tail]
  omega

theorem lines_of_ne_nil {text : List UInt8} (h : text ≠ []) :
    lines text = text.takeWhile (· != 0x0A) :: lines (behindLine text) := by
  have hline : 0x0A ∉ text.takeWhile (· != 0x0A) := by
    intro hmem
    have hall := List.all_eq_true.1 List.all_takeWhile _ hmem
    simp at hall
  have hsplit := List.takeWhile_append_dropWhile (p := (· != 0x0A)) (l := text)
  cases hrest : text.dropWhile (· != 0x0A) with
  | nil =>
    rw [hrest, List.append_nil] at hsplit
    rw [hsplit] at hline
    rw [behindLine, hrest, hsplit, lines_eq_splitOn, List.splitOn_eq_singleton hline, withoutEmptyLast]
    simp [h, lines, splitLines]
  | cons b rest =>
    have hb : b = 0x0A := by
      have hhead := List.head?_dropWhile_not (· != 0x0A) text
      simpa [hrest] using hhead
    rw [hrest, hb, ← List.singleton_append, ← List.append_assoc] at hsplit
    have hlines := lines_append hline rest
    rw [hsplit] at hlines
    rw [behindLine, hrest, hlines, List.tail_cons]

/-- Whether a byte is a character of ASCII, the blank or one behind it. -/
def isVisible (b : UInt8) : Bool := 0x20 ≤ b && b < 0x80

/-- Bytes of text without control characters. -/
structure Printed (bytes : List UInt8) : Prop where
  isText : ∃ s, bytes = utf8 s
  visible : ∀ b ∈ bytes, 0x20 ≤ b

namespace Printed

theorem nil : Printed [] := ⟨⟨"", rfl⟩, by simp⟩

theorem append {as bs : List UInt8} (ha : Printed as) (hb : Printed bs) : Printed (as ++ bs) := by
  obtain ⟨s, rfl⟩ := ha.isText
  obtain ⟨t, rfl⟩ := hb.isText
  refine ⟨⟨s ++ t, (utf8_append s t).symm⟩, fun b hmem => ?_⟩
  exact (List.mem_append.1 hmem).elim (ha.visible b) (hb.visible b)

theorem ascii {bytes : List UInt8} (h : bytes.all isVisible = true) : Printed bytes := by
  induction bytes with
  | nil => exact nil
  | cons b bytes ih =>
    rw [List.all_cons, Bool.and_eq_true] at h
    obtain ⟨hlow, hhigh⟩ : 0x20 ≤ b ∧ b < 0x80 := by simpa [isVisible] using h.1
    have hsingle : Printed [b] :=
      ⟨⟨_, (utf8_singleton_ofNat hhigh).symm⟩, by simpa using hlow⟩
    exact hsingle.append (ih h.2)

theorem char {c : Char} (h : 128 ≤ c.toNat) : Printed (String.utf8EncodeChar c) := by
  refine ⟨⟨String.singleton c, by simp [utf8_eq_flatMap]⟩, fun b hb => ?_⟩
  exact UInt8.le_trans (by decide) (le_of_mem_utf8EncodeChar h b hb)

theorem newline_notMem {bytes : List UInt8} (h : Printed bytes) : 0x0A ∉ bytes :=
  fun hmem => absurd (h.visible _ hmem) (by decide)

end Printed

theorem stripReturns_append {front : List UInt8} {b : UInt8} (hb : b ≠ 0x0D) (returns : Nat) :
    stripReturns (front ++ [b] ++ List.replicate returns 0x0D) = front ++ [b] := by
  have hreturns : ∀ r ∈ List.replicate returns (0x0D : UInt8), (r == 0x0D) = true := by simp
  rw [stripReturns, List.reverse_append, List.reverse_replicate,
    List.dropWhile_append_of_pos hreturns]
  simp [hb]

/-- Lines in another style: with carriage returns before their newlines, and with lines of white
space between them. -/
inductive Restyles : List (List UInt8) → List (List UInt8) → Prop
  | nil : Restyles [] []
  | line {lines restyled : List (List UInt8)} (line : List UInt8) (returns : Nat)
      (h : Restyles lines restyled) :
      Restyles (line :: lines) ((line ++ List.replicate returns 0x0D) :: restyled)
  | blank {lines restyled : List (List UInt8)} (text : String) (hblank : isAllBlank text = true)
      (hline : '\n' ∉ text.toList) (h : Restyles lines restyled) :
      Restyles lines (utf8 text :: restyled)

theorem Restyles.newline_notMem {lines restyled : List (List UInt8)} (h : Restyles lines restyled)
    (hlines : ∀ line ∈ lines, 0x0A ∉ line) : ∀ line ∈ restyled, 0x0A ∉ line := by
  induction h with
  | nil => simp
  | line line returns h ih =>
    obtain ⟨hline, hrest⟩ := List.forall_mem_cons.1 hlines
    exact List.forall_mem_cons.2 ⟨by simp [hline], ih hrest⟩
  | blank text hblank hline h ih =>
    exact List.forall_mem_cons.2 ⟨newline_notMem_utf8 hline, ih hlines⟩

theorem Restyles.refl (lines : List (List UInt8)) : Restyles lines lines := by
  induction lines with
  | nil => exact .nil
  | cons line lines ih => simpa using ih.line line 0

/-- Whether `other` is `text` in another style: its lines restyled, and the last newline left out or
not. -/
def IsRestyled (text other : List UInt8) : Prop :=
  ∃ lines restyled, (∀ line ∈ lines, 0x0A ∉ line) ∧ text = ended lines ∧ Restyles lines restyled ∧
    (other = ended restyled ∨ other ++ [0x0A] = ended restyled)

/-- The lines of a restyled text are those of the text restyled, but for an empty one at the end. -/
theorem IsRestyled.lines {text other : List UInt8} (h : IsRestyled text other) :
    ∃ restyled, Restyles (lines text) restyled ∧
      (lines other = restyled ∨ lines other ++ [[]] = restyled) := by
  obtain ⟨ls, restyled, hlines, rfl, hrestyles, hother⟩ := h
  have hrestyled := lines_ended (hrestyles.newline_notMem hlines)
  refine ⟨restyled, by rwa [lines_ended hlines], ?_⟩
  rcases hother with rfl | hother
  · exact .inl hrestyled
  · have hnewline := lines_newline other
    rw [hother] at hnewline
    exact hnewline.imp (fun he => he.symm.trans hrestyled) (fun he => he.symm.trans hrestyled)

end TraceJournal.Text
