/-!
# File contents

The bytes of a file, kept in the runs in which they were written, so that appending does not
copy what is there. `toList` is the content; `toList_append` and `length_toList` say all that is
needed of the runs.
-/
namespace TraceJournal

/-- Bytes in runs, the newest run first, and their number. -/
structure Contents where
  runs : List (List UInt8)
  size : Nat
  size_eq : size = runs.flatten.length

namespace Contents

def toList (c : Contents) : List UInt8 := c.runs.reverse.flatten

def empty : Contents := ⟨[], 0, rfl⟩

def ofList (bytes : List UInt8) : Contents := ⟨[bytes], bytes.length, by simp⟩

def append (c : Contents) (bytes : List UInt8) : Contents :=
  ⟨bytes :: c.runs, bytes.length + c.size, by simp [c.size_eq]⟩

@[simp] theorem toList_empty : empty.toList = [] := rfl

@[simp] theorem toList_ofList (bytes : List UInt8) : (ofList bytes).toList = bytes := by
  simp [toList, ofList]

@[simp] theorem toList_append (c : Contents) (bytes : List UInt8) :
    (c.append bytes).toList = c.toList ++ bytes := by
  simp [toList, append]

theorem length_toList (c : Contents) : c.toList.length = c.size := by
  rw [c.size_eq, toList]
  simp [List.length_flatten, List.sum_reverse]

/-- Writes bytes over the content from a position on. What lies between the end and a position
behind it becomes zero. -/
def splice (old : List UInt8) (pos : Nat) (bytes : List UInt8) : List UInt8 :=
  old.take pos ++ List.replicate (pos - old.length) 0 ++ bytes ++ old.drop (pos + bytes.length)

def write (c : Contents) (pos : Nat) (bytes : List UInt8) : Contents :=
  if pos = c.size then c.append bytes else ofList (splice c.toList pos bytes)

end Contents

end TraceJournal
