import TraceJournal.Proofs.Script.Lines

/-!
# The numbers of bad lines

Every line gives its own item, whatever the others are. What is wrong with a line is reported under a
number that counts the lines of text up to it: this is the number of the line as long as all lines
before it are text, and too low by one for each that is not.
-/
namespace TraceJournal

/-- Whether a failure says that it is about the line with this number. -/
def Failure.Names (f : Failure) (number : Nat) : Prop :=
  f.context = [s!"read line {number}"] ∨ f.context = [s!"parse jsonl line {number}"]

namespace MessageLines

def isText (line : List UInt8) : Bool := (Text.ofUtf8? line).isSome

/-- What a line gives when it has this number. A line of white space gives nothing. -/
def item? (number : Nat) (line : List UInt8) : Option (Except Failure Message) :=
  match readLine line with
  | .notText => some (.error ⟨[s!"read line {number}"], .io .invalidUtf8⟩)
  | .blank => none
  | .message result => some (during .json s!"parse jsonl line {number}" result)

/-- The number that the line at a position is given: lines before it that are no text are not
counted. -/
def numberAt (lines : List (List UInt8)) (position : Nat) : Nat :=
  (lines.take position).countP isText + 1

variable {line : List UInt8} {number position : Nat} {f : Failure}

theorem readLine_eq_notText_iff : readLine line = .notText ↔ isText line = false := by
  rw [readLine, isText]
  cases Text.ofUtf8? line with
  | none => simp
  | some text =>
    simp only [Option.isSome_some, Bool.true_eq_false, iff_false]
    split <;> simp

theorem numberAt_cons (line : List UInt8) (lines : List (List UInt8)) (position : Nat) :
    numberAt (line :: lines) (position + 1) =
      numberAt lines position + if isText line = true then 1 else 0 := by
  rw [numberAt, numberAt, List.take_succ_cons, List.countP_cons]
  omega

/-- A line gives its item, and is counted if it is text. -/
theorem readFrom_cons (count : Nat) (line : List UInt8) (lines : List (List UInt8)) :
    readFrom count (line :: lines) = (item? (count + 1) line).toList ++
      readFrom (count + if isText line = true then 1 else 0) lines := by
  have htext : isText line = false ↔ readLine line = .notText := readLine_eq_notText_iff.symm
  rw [readFrom, item?]
  cases hline : readLine line with
  | notText =>
    rw [htext.2 hline]
    rfl
  | blank | message =>
    have hcounted : isText line = true := by
      rw [← Bool.not_eq_false, htext, hline]
      exact Line.noConfusion
    rw [hcounted]
    rfl

/-- The items are those of the lines, each under the number that its line is given. -/
theorem readFrom_eq (count : Nat) (lines : List (List UInt8)) :
    readFrom count lines = lines.zipIdx.filterMap fun (line, position) =>
      item? (count + numberAt lines position) line := by
  induction lines generalizing count with
  | nil => rfl
  | cons line lines ih =>
    have hfirst : numberAt (line :: lines) 0 = 1 := rfl
    -- The lines behind this one have their positions shifted by one.
    have hrest : (fun (other, position) => item? (count + numberAt (line :: lines) position) other) ∘
        (fun (other, position) => (other, position + 1)) = fun (other, position) =>
          item? (count + (if isText line = true then 1 else 0) + numberAt lines position) other := by
      funext ⟨other, position⟩
      dsimp only [Function.comp]
      rw [numberAt_cons, Nat.add_assoc, Nat.add_comm (numberAt lines position)]
    rw [readFrom_cons, ih, List.zipIdx_cons, Nat.zero_add, List.filterMap_cons, List.zipIdx_succ,
      List.filterMap_map, hrest]
    dsimp only
    rw [hfirst]
    cases item? (count + 1) line <;> rfl

theorem context_of_item? (h : item? number line = some (.error f)) :
    f.context = [s!"read line {number}"] ∨ f.context = [s!"parse jsonl line {number}"] := by
  rw [item?] at h
  split at h
  · cases h
    exact .inl rfl
  · cases h
  · next result _ =>
    cases result with
    | ok m => cases h
    | error fault =>
      cases h
      exact .inr rfl

theorem readNumber_ne_parseNumber (m n : Nat) : s!"read line {m}" ≠ s!"parse jsonl line {n}" := by
  intro heq
  have hread : "read line ".toList = 'r' :: "ead line ".toList := by decide
  have hparse : "parse jsonl line ".toList = 'p' :: "arse jsonl line ".toList := by decide
  replace heq := congrArg (·.toList) heq
  simp [toString, String.toList_append, hread, hparse] at heq

/-- A failure of a line names the number that the line was given, and no other. -/
theorem names_iff (h : item? number line = some (.error f)) (other : Nat) :
    f.Names other ↔ other = number := by
  rw [Failure.Names]
  rcases context_of_item? h with hcontext | hcontext
  · rw [hcontext, List.singleton_inj, List.singleton_inj, Text.numbered_inj,
      or_iff_left (readNumber_ne_parseNumber number other), eq_comm]
  · rw [hcontext, List.singleton_inj, List.singleton_inj, Text.numbered_inj,
      or_iff_right (readNumber_ne_parseNumber other number).symm, eq_comm]

theorem numberAt_eq_iff {lines : List (List UInt8)} (h : position ≤ lines.length) :
    numberAt lines position = position + 1 ↔ ∀ before ∈ lines.take position, isText before = true := by
  rw [numberAt, Nat.add_right_cancel_iff, ← List.countP_eq_length, List.length_take_of_le h]

/-- The lines are the pieces between newlines, and each gives its own item. What is wrong with one is
named by its number among the lines exactly if every line before it is text. -/
theorem read_names (text : List UInt8) :
    ((∀ line ∈ Text.lines text, 0x0A ∉ line) ∧
      (Text.ended (Text.lines text) = text ∨ Text.ended (Text.lines text) = text ++ [0x0A])) ∧
    read text = (Text.lines text).zipIdx.filterMap
      (fun (line, position) => item? (numberAt (Text.lines text) position) line) ∧
    ∀ position line f, (Text.lines text)[position]? = some line →
      item? (numberAt (Text.lines text) position) line = some (.error f) →
      (f.Names (position + 1) ↔ ∀ before ∈ (Text.lines text).take position, isText before = true) := by
  refine ⟨Text.ended_lines text, ?_, fun position line f hline hitem => ?_⟩
  · rw [read, readFrom_eq]
    simp only [Nat.zero_add]
  · have hposition : position ≤ (Text.lines text).length :=
      (List.getElem?_eq_some_iff.1 hline).1.le
    rw [names_iff hitem, eq_comm, numberAt_eq_iff hposition]

/-- Brackets with nothing between them say no message. -/
def nothingSaid (number : Nat) : Failure :=
  ⟨[s!"parse jsonl line {number}"], .json (.shape (.missingField "msg"))⟩

theorem item?_brackets (number : Nat) : item? number [0x7B, 0x7D] = some (.error (nothingSaid number)) := by
  have htext : Text.ofUtf8? [0x7B, 0x7D] = some "\x7b\x7d" := Text.ofUtf8?_utf8 "\x7b\x7d"
  have hblank : Text.isAllBlank "\x7b\x7d" = false := by decide
  have hread : Json.read Json.Node.message [0x7B, 0x7D] = .error (.shape (.missingField "msg")) := rfl
  have hstrip : Text.stripReturns [0x7B, 0x7D] = [0x7B, 0x7D] := by decide
  rw [item?, readLine, htext, hstrip, hread]
  simp only [hblank]
  rfl

/-- A blank line before the bad one is counted. -/
theorem read_names_behind_blank :
    read [0x0A, 0x7B, 0x7D] = [.error (nothingSaid 2)] ∧ (nothingSaid 2).Names 2 := by
  have hlines : Text.lines [0x0A, 0x7B, 0x7D] = [[], [0x7B, 0x7D]] := by decide
  have hempty : isText [] = true := by decide +kernel
  have hblank : readLine [] = .blank := @readLine_utf8 "" rfl
  have hnumber : numberAt [[], [0x7B, 0x7D]] 1 = 2 := by simp [numberAt, hempty]
  constructor
  · rw [read, hlines, readFrom_cons, readFrom_cons, hempty, item?_brackets, item?, hblank]
    rfl
  · rcases read_names [0x0A, 0x7B, 0x7D] with ⟨-, -, hnames⟩
    rw [hlines] at hnames
    apply (hnames 1 [0x7B, 0x7D] _ rfl _).2
    · simp [hempty]
    · rw [hnumber]
      exact item?_brackets 2

/-- A line before the bad one that is no text is not counted: the second line is named as the first. -/
theorem read_misnames_behind_broken :
    Text.lines [0xFF, 0x0A, 0x7B, 0x7D, 0x0A] = [[0xFF], [0x7B, 0x7D]] ∧
      read [0xFF, 0x0A, 0x7B, 0x7D, 0x0A] =
        [.error ⟨["read line 1"], .io .invalidUtf8⟩, .error (nothingSaid 1)] ∧
      ¬(nothingSaid 1).Names 2 := by
  have hlines : Text.lines [0xFF, 0x0A, 0x7B, 0x7D, 0x0A] = [[0xFF], [0x7B, 0x7D]] := by decide
  have hbroken : isText [0xFF] = false := by decide +kernel
  refine ⟨hlines, ?_, ?_⟩
  · rw [read, hlines, readFrom_cons, readFrom_cons, hbroken, item?_brackets, item?,
      readLine_eq_notText_iff.2 hbroken]
    rfl
  · rw [names_iff (item?_brackets 1)]
    decide

end MessageLines

end TraceJournal
