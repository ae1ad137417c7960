/-!
# Steps that may fail

Steps made one after the other succeed exactly if each of them does.
-/
namespace TraceJournal

theorem bind_eq_ok_iff {ε α β : Type} {x : Except ε α} {f : α → Except ε β} {b : β} :
    (x >>= f) = .ok b ↔ ∃ a, x = .ok a ∧ f a = .ok b := by
  cases x <;> simp [bind, Except.bind]

/-- Steps made one after the other give these values exactly if each of them gives its own. -/
theorem mapM_eq_ok_iff {ε α β : Type} {f : α → Except ε β} {xs : List α} {ys : List β} :
    xs.mapM f = .ok ys ↔ xs.map f = ys.map .ok := by
  induction xs generalizing ys with
  | nil => cases ys <;> simp [pure, Except.pure]
  | cons x xs ih =>
    simp only [List.mapM_cons, bind_eq_ok_iff, pure, Except.pure, Except.ok.injEq, List.map_cons]
    constructor
    · rintro ⟨y, hx, zs, hxs, rfl⟩
      rw [hx, ih.1 hxs, List.map_cons]
    · intro h
      obtain ⟨y, zs, rfl, hx, hxs⟩ := List.map_eq_cons_iff.1 h.symm
      exact ⟨y, hx.symm, zs, ih.2 hxs.symm, rfl⟩

theorem map_eq_ok {ε α β : Type} {x : Except ε α} {a : α} (f : α → β) (h : x = .ok a) :
    f <$> x = .ok (f a) := by
  rw [h]
  rfl

theorem map_eq_ok_iff {ε α β : Type} {x : Except ε α} {f : α → β} {b : β} :
    f <$> x = .ok b ↔ ∃ a, x = .ok a ∧ f a = b := by
  cases x <;> simp [Functor.map, Except.map]

/-- Reading parts that were made from values gives the values back, if each part does. -/
theorem mapM_map_eq_ok {ε α β : Type} {f : β → Except ε α} {g : α → β} {xs : List α}
    (h : ∀ x ∈ xs, f (g x) = .ok x) : (xs.map g).mapM f = .ok xs := by
  rw [mapM_eq_ok_iff, List.map_map]
  exact List.map_congr_left h

/-- Results are not joined exactly if one of them failed; the first failure is what is left. -/
theorem mapM_id_eq_error_iff {ε α : Type} {e : ε} {results : List (Except ε α)} :
    results.mapM id = .error e ↔
      ∃ (values : List α) (rest : List (Except ε α)), results = values.map .ok ++ .error e :: rest := by
  induction results with
  | nil => simp [pure, Except.pure]
  | cons result results ih =>
    cases result with
    | error f =>
      constructor
      · intro h
        cases h
        exact ⟨[], results, rfl⟩
      · rintro ⟨values, rest, heq⟩
        cases values with
        | nil =>
          cases heq
          rfl
        | cons value values => cases heq
    | ok value =>
      have hjoin : (Except.ok value :: results).mapM id = .error e ↔ results.mapM id = .error e := by
        cases hrest : results.mapM id <;> simp [hrest, pure, bind, Except.pure, Except.bind]
      rw [hjoin, ih]
      constructor
      · rintro ⟨values, rest, rfl⟩
        exact ⟨value :: values, rest, rfl⟩
      · rintro ⟨values, rest, heq⟩
        cases values with
        | nil => cases heq
        | cons first values =>
          cases heq
          exact ⟨values, rest, rfl⟩

end TraceJournal
