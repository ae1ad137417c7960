/-!
# Text as bytes

The encoding of text in UTF-8 and its partial inverse, over lists of bytes.
-/
namespace TraceJournal.Text

def utf8 (s : String) : List UInt8 := s.toByteArray.data.toList

/-- The text that the bytes encode, unless they are not well formed. -/
def ofUtf8? (bytes : List UInt8) : Option String := String.fromUTF8? ⟨⟨bytes⟩⟩

theorem ofUtf8?_utf8 (s : String) : ofUtf8? (utf8 s) = some s := by
  simp only [ofUtf8?, utf8, String.fromUTF8?]
  exact dif_pos s.isValidUTF8

/-- The bytes at the end of a block that make no whole character. Only three at the most can be
the start of one, so with more of them the block is not well formed. -/
def leftOver? (block : List UInt8) : Option (List UInt8) :=
  [0, 1, 2, 3].findSome? fun n =>
    let whole := block.length - n
    if (ofUtf8? (block.take whole)).isSome then some (block.drop whole) else none

theorem length_leftOver? {block tail : List UInt8} (h : leftOver? block = some tail) :
    tail.length ≤ 3 := by
  obtain ⟨n, hn, h⟩ := List.exists_of_findSome?_eq_some h
  simp only [List.mem_cons, List.not_mem_nil, or_false] at hn
  dsimp only at h
  split at h
  · cases h
    simp only [List.length_drop]
    omega
  · cases h

/-- Whether some continuation makes well-formed text of the bytes. -/
def isCut (bytes : List UInt8) : Bool :=
  [[0x80], [0xBF], [0x80, 0x80], [0xBF, 0xBF], [0x80, 0x80, 0x80], [0xBF, 0xBF, 0xBF]].any
    fun (more : List UInt8) => (ofUtf8? (bytes ++ more)).isSome

/-- The length of the character that starts the bytes and the character, or the length of the
longest start of one and the mark that stands for what cannot be read. -/
def firstChar (b : UInt8) (rest : List UInt8) : Nat × String :=
  let whole := [1, 2, 3, 4].filterMap fun n =>
    match ofUtf8? ((b :: rest).take n) with
    | some s => if s.length = 1 then some (n, s) else none
    | none => none
  match whole with
  | found :: _ => found
  | [] =>
    let cut := [3, 2].filter fun n => n ≤ rest.length + 1 && isCut ((b :: rest).take n)
    (cut.headD 1, "\uFFFD")

/-- The text that bytes encode, with a mark for each part that is not well formed. -/
def ofUtf8Lossy (bytes : List UInt8) : String :=
  match bytes with
  | [] => ""
  | b :: rest =>
    match ofUtf8? bytes with
    | some s => s
    | none =>
      let (length, s) := firstChar b rest
      s ++ ofUtf8Lossy (rest.drop (length - 1))
termination_by bytes.length
decreasing_by
  simp only [List.length_drop, List.length_cons]
  omega

end TraceJournal.Text
