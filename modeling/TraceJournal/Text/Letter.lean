/-!
# Letters

Upper and lower case among the letters of ASCII; every other character is its own lower case.
-/
namespace TraceJournal.Text

def lowerCase (c : Char) : Char :=
  if 'A' ≤ c ∧ c ≤ 'Z' then Char.ofNat (c.toNat + 32) else c

end TraceJournal.Text
