/-!
# Values under keys

A list of pairs in which one key has been set, in place if it is there or at the end, has the new value
under that key and the old values under all others.
-/
namespace TraceJournal

variable {α β : Type} [BEq α] [LawfulBEq α]

theorem lookup_map_replace (pairs : List (α × β)) (a : α) (b : β) (x : α) :
    (pairs.map fun (y, old) => (y, if y == a then b else old)).lookup x =
      (pairs.lookup x).map fun old => if x == a then b else old := by
  induction pairs with
  | nil => rfl
  | cons pair pairs ih =>
    rcases pair with ⟨y, old⟩
    rw [List.map_cons, List.lookup_cons, List.lookup_cons, ih]
    cases hx : x == y with
    | true => rw [beq_iff_eq.1 hx]; rfl
    | false => rfl

theorem isSome_lookup (pairs : List (α × β)) (a : α) :
    (pairs.lookup a).isSome = pairs.any (·.1 == a) := by
  induction pairs with
  | nil => rfl
  | cons pair pairs ih =>
    rcases pair with ⟨y, old⟩
    rw [List.lookup_cons, List.any_cons, ← ih, Bool.beq_comm]
    cases y == a <;> rfl

theorem lookup_set (pairs : List (α × β)) (a : α) (b : β) (x : α) :
    (if pairs.any (·.1 == a) then pairs.map fun (y, old) => (y, if y == a then b else old)
      else pairs ++ [(a, b)]).lookup x = if x == a then some b else pairs.lookup x := by
  cases hany : pairs.any (·.1 == a) with
  | true =>
    rw [if_pos rfl, lookup_map_replace]
    cases hx : x == a with
    | true =>
      rw [← isSome_lookup, ← beq_iff_eq.1 hx, Option.isSome_iff_exists] at hany
      obtain ⟨old, hold⟩ := hany
      simp [hold]
    | false => simp
  | false =>
    rw [if_neg Bool.false_ne_true, List.lookup_append, List.lookup_cons]
    cases hx : x == a with
    | true =>
      rw [← isSome_lookup, ← beq_iff_eq.1 hx, Option.isSome_eq_false_iff, Option.isNone_iff_eq_none]
        at hany
      simp [hany]
    | false => simp

end TraceJournal
