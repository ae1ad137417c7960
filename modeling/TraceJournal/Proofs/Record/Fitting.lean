import TraceJournal.Proofs.Record.Encoding

/-!
# Records that fit a budget

The longest beginning of a sequence of records whose wire forms stay within a budget. It grows by a
further record only if nothing has been left out before.
-/
namespace TraceJournal

def totalSize : List Record → Nat
  | [] => 0
  | r :: rs => r.size + totalSize rs

theorem totalSize_append (rs ss : List Record) :
    totalSize (rs ++ ss) = totalSize rs + totalSize ss := by
  induction rs with
  | nil => rw [List.nil_append, totalSize, Nat.zero_add]
  | cons r rs ih => rw [List.cons_append, totalSize, totalSize, ih, Nat.add_assoc]

/-- The records up to the first one that exceeds the budget. -/
def fitting (budget : Nat) : List Record → List Record
  | [] => []
  | r :: rs => if r.size ≤ budget then r :: fitting (budget - r.size) rs else []

/-- The longest beginning of `all` that takes at most `budget` bytes. -/
structure LongestFitting (budget : Nat) (kept all : List Record) : Prop where
  isPrefix : kept <+: all
  fits : totalSize kept ≤ budget
  longest : ∀ part, part <+: all → totalSize part ≤ budget → part <+: kept

theorem fitting_isPrefix (budget : Nat) (rs : List Record) : fitting budget rs <+: rs := by
  induction rs generalizing budget with
  | nil => exact List.nil_prefix
  | cons r rs ih =>
    rw [fitting]
    split
    · exact List.prefix_cons_inj r |>.2 (ih _)
    · exact List.nil_prefix

theorem totalSize_fitting_le (budget : Nat) (rs : List Record) :
    totalSize (fitting budget rs) ≤ budget := by
  induction rs generalizing budget with
  | nil => exact Nat.zero_le _
  | cons r rs ih =>
    rw [fitting]
    split
    · next h =>
      have hrest := ih (budget - r.size)
      rw [totalSize]
      omega
    · exact Nat.zero_le _

theorem fitting_longest (budget : Nat) (rs : List Record) :
    LongestFitting budget (fitting budget rs) rs where
  isPrefix := fitting_isPrefix budget rs
  fits := totalSize_fitting_le budget rs
  longest := by
    intro part hpart hsize
    induction rs generalizing budget part with
    | nil => exact hpart
    | cons r rs ih =>
      cases part with
      | nil => exact List.nil_prefix
      | cons s part =>
        obtain ⟨rfl, htail⟩ := List.cons_prefix_cons.1 hpart
        rw [totalSize] at hsize
        have hs : s.size ≤ budget := by omega
        rw [fitting, if_pos hs, List.prefix_cons_inj]
        exact ih _ _ htail (by omega)

/-- One more record is kept if all were kept before it and it fits behind them. -/
theorem fitting_snoc (budget : Nat) (rs : List Record) (r : Record) :
    fitting budget (rs ++ [r]) =
      if fitting budget rs = rs ∧ totalSize rs + r.size ≤ budget then rs ++ [r]
      else fitting budget rs := by
  induction rs generalizing budget with
  | nil => simp [fitting, totalSize]
  | cons s rs ih =>
    have htotal : totalSize (s :: rs) = s.size + totalSize rs := rfl
    rw [List.cons_append, fitting, fitting]
    by_cases hs : s.size ≤ budget
    · have hiff : totalSize rs + r.size ≤ budget - s.size ↔
          totalSize (s :: rs) + r.size ≤ budget := by omega
      rw [if_pos hs, if_pos hs, ih]
      simp only [hiff, List.cons.injEq, true_and]
      split <;> rfl
    · rw [if_neg hs, if_neg hs]
      simp

theorem fitting_snoc_of_fits {budget : Nat} {rs : List Record} {r : Record}
    (hall : fitting budget rs = rs) (hfit : totalSize rs + r.size ≤ budget) :
    fitting budget (rs ++ [r]) = rs ++ [r] := by
  rw [fitting_snoc, if_pos ⟨hall, hfit⟩]

/-- Once a record has been left out, all later ones are. -/
theorem fitting_snoc_of_left_out {budget : Nat} {rs : List Record} {r : Record}
    (h : fitting budget rs ≠ rs ∨ budget < totalSize (fitting budget rs) + r.size) :
    fitting budget (rs ++ [r]) = fitting budget rs ∧ fitting budget (rs ++ [r]) ≠ rs ++ [r] := by
  have hdrop : fitting budget (rs ++ [r]) = fitting budget rs := by
    rw [fitting_snoc, if_neg]
    rintro ⟨hall, hfit⟩
    rw [hall] at h
    rcases h with hne | hlt
    · exact hne rfl
    · omega
  refine ⟨hdrop, ?_⟩
  intro hall
  have hlength := (fitting_isPrefix budget rs).length_le
  rw [← hdrop, hall, List.length_append, List.length_singleton] at hlength
  omega

end TraceJournal
