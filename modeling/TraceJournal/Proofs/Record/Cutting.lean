import TraceJournal.Proofs.Record.Exactness
import TraceJournal.Proofs.Record.Fitting
import Mathlib.Data.List.Infix
import Mathlib.Order.Bounds.Basic

/-!
# Logs that were cut

A log that breaks off at some byte, because its writer was stopped there, still reads as the records that
end before the cut. If the cut goes through a record, reading ends with one failure: where that record
starts, how much of it is there, and how many bytes it would take. Nothing that is left of a record is
taken for anything else.
-/
namespace TraceJournal

/-- Records written one after the other from an offset on, each with the offset where it starts. -/
def placed (offset : Nat) : List Record → List (Nat × Record)
  | [] => []
  | r :: rs => (offset, r) :: placed (offset + r.size) rs

def wholeBefore (cut : Nat) (rs : List Record) : List Record :=
  ((placed 0 rs).filter fun (first, r) => first + r.size ≤ cut).map Prod.snd

/-- Whether some of the records, none or all of them perhaps, end at this offset. -/
def IsBoundary (rs : List Record) (offset : Nat) : Prop := offset ∈ rs.inits.map totalSize

instance (rs : List Record) (offset : Nat) : Decidable (IsBoundary rs offset) :=
  inferInstanceAs (Decidable (_ ∈ _))

variable {rs front behind : List Record} {r : Record} {cut offset first : Nat}

theorem length_flatMap_wire (rs : List Record) : (rs.flatMap Record.wire).length = totalSize rs := by
  induction rs with
  | nil => rfl
  | cons r rs ih => rw [List.flatMap_cons, List.length_append, r.length_wire, ih, totalSize]

theorem le_of_mem_placed (h : (first, r) ∈ placed offset rs) : offset ≤ first := by
  induction rs generalizing offset with
  | nil => cases h
  | cons s rs ih =>
    rw [placed, List.mem_cons] at h
    rcases h with heq | hmem
    · cases heq
      exact Nat.le_refl _
    · exact Nat.le_trans (Nat.le_add_right _ _) (ih hmem)

theorem mem_placed (front : List Record) (r : Record) (behind : List Record) (offset : Nat) :
    (offset + totalSize front, r) ∈ placed offset (front ++ r :: behind) := by
  induction front generalizing offset with
  | nil => exact List.mem_cons_self
  | cons s front ih =>
    rw [List.cons_append, placed, totalSize, ← Nat.add_assoc]
    exact List.mem_cons_of_mem _ (ih (offset + s.size))

/-- Behind the first record that reaches beyond the cut no other one ends before it. -/
theorem filter_placed (rs : List Record) (offset cut : Nat) :
    ((placed offset rs).filter fun (first, r) => first + r.size ≤ offset + cut).map Prod.snd =
      fitting cut rs := by
  induction rs generalizing offset cut with
  | nil => rfl
  | cons r rs ih =>
    rw [placed, fitting, List.filter_cons]
    by_cases hr : r.size ≤ cut
    · have hcut : offset + cut = offset + r.size + (cut - r.size) := by omega
      rw [if_pos hr, if_pos (by simpa using hr), List.map_cons, hcut, ih]
    · rw [if_neg hr, if_neg (by simpa using hr), List.map_eq_nil_iff, List.filter_eq_nil_iff]
      rintro ⟨first, s⟩ hmem
      have hfirst := le_of_mem_placed hmem
      simp only [decide_eq_true_eq]
      omega

theorem wholeBefore_eq (cut : Nat) (rs : List Record) : wholeBefore cut rs = fitting cut rs := by
  have h := filter_placed rs 0 cut
  rwa [Nat.zero_add] at h

theorem isBoundary_iff : IsBoundary rs offset ↔ ∃ front, front <+: rs ∧ totalSize front = offset := by
  simp only [IsBoundary, List.mem_map, List.mem_inits]

/-- The last boundary that is not behind the cut is where the records before it end. -/
theorem isGreatest_fitting (cut : Nat) (rs : List Record) :
    IsGreatest {offset | IsBoundary rs offset ∧ offset ≤ cut} (totalSize (fitting cut rs)) := by
  have hlongest := fitting_longest cut rs
  refine ⟨⟨isBoundary_iff.2 ⟨_, hlongest.isPrefix, rfl⟩, hlongest.fits⟩, ?_⟩
  rintro offset ⟨hoffset, hle⟩
  rcases isBoundary_iff.1 hoffset with ⟨front, hfront, rfl⟩
  rcases hlongest.longest front hfront hle with ⟨more, hmore⟩
  rw [← hmore, totalSize_append]
  exact Nat.le_add_right _ _

/-- A cut is on a boundary, or it goes through the record behind those that lie before it. -/
theorem cut_cases (hcut : cut ≤ totalSize rs) :
    totalSize (fitting cut rs) = cut ∨ ∃ r behind, rs = fitting cut rs ++ r :: behind ∧
      totalSize (fitting cut rs) < cut ∧ cut < totalSize (fitting cut rs) + r.size := by
  have hlongest := fitting_longest cut rs
  have hfits := hlongest.fits
  rcases hlongest.isPrefix with ⟨rest, hrest⟩
  cases rest with
  | nil =>
    rw [List.append_nil] at hrest
    rw [hrest] at hfits ⊢
    exact .inl (Nat.le_antisymm hfits hcut)
  | cons r behind =>
    rcases Nat.eq_or_lt_of_le hfits with hexact | hlt
    · exact .inl hexact
    refine .inr ⟨r, behind, hrest.symm, hlt, ?_⟩
    by_contra hbeyond
    -- With this record the beginning would still fit, and it is longer than the longest.
    have hone : fitting cut rs ++ [r] <+: rs := ⟨behind, by simpa using hrest⟩
    have hfit : totalSize (fitting cut rs ++ [r]) ≤ cut := by
      simpa [totalSize_append, totalSize] using hbeyond
    have hlength := (hlongest.longest _ hone hfit).length_le
    rw [List.length_append, List.length_singleton] at hlength
    omega

theorem isBoundary_iff_fitting : IsBoundary rs cut ↔ totalSize (fitting cut rs) = cut := by
  have hgreatest := isGreatest_fitting cut rs
  constructor
  · intro h
    exact Nat.le_antisymm hgreatest.1.2 (hgreatest.2 ⟨h, Nat.le_refl cut⟩)
  · intro h
    have hboundary := hgreatest.1.1
    rwa [h] at hboundary

theorem take_flatMap_wire (rest : List UInt8) (h : totalSize front ≤ cut) :
    (front.flatMap Record.wire ++ rest).take cut =
      front.flatMap Record.wire ++ rest.take (cut - totalSize front) := by
  rw [List.take_append, length_flatMap_wire, List.take_of_length_le]
  rwa [length_flatMap_wire]

theorem strictPrefix_take {α : Type} {xs : List α} {n : Nat} (h : n < xs.length) :
    StrictPrefix (xs.take n) xs := by
  refine ⟨List.take_prefix n xs, fun heq => ?_⟩
  have hlength := congrArg List.length heq
  rw [List.length_take] at hlength
  omega

theorem Record.lt_needed {available : Nat} (h : available < r.size) : available < r.needed available := by
  rw [needed]
  split
  · assumption
  · exact h

namespace RecordReader

theorem items_take_boundary (hrs : ∀ r ∈ rs, r.Encodable) (hfront : front <+: rs) :
    ((start ((rs.flatMap Record.wire).take (totalSize front))).items).map (·.1) =
      front.map .ok := by
  rcases hfront with ⟨behind, rfl⟩
  have hkept := (List.forall_mem_append.1 hrs).1
  have hitems := items_flatMap_wire hkept [] 0
  rw [List.flatMap_append, take_flatMap_wire _ (Nat.le_refl _), Nat.sub_self, List.take_zero, start,
    hitems, items_nil, List.map_nil, List.append_nil]

theorem items_take_through (hrs : ∀ s ∈ front ++ r :: behind, s.Encodable)
    (hbefore : totalSize front < cut) (hbehind : cut < totalSize front + r.size) :
    ((start (((front ++ r :: behind).flatMap Record.wire).take cut)).items).map (·.1) =
      front.map .ok ++ [.error (.truncated (totalSize front) (r.needed (cut - totalSize front))
        (cut - totalSize front))] := by
  rcases List.forall_mem_append.1 hrs with ⟨hfront, hrest⟩
  have hr : r.Encodable := hrest r List.mem_cons_self
  have hthere : cut - totalSize front < r.wire.length := by
    rw [r.length_wire]
    omega
  have hlength : (r.wire.take (cut - totalSize front)).length = cut - totalSize front :=
    List.length_take_of_le hthere.le
  have hne : r.wire.take (cut - totalSize front) ≠ [] := by
    rw [← List.length_pos_iff, hlength]
    omega
  have htorn := items_strictPrefix hr (strictPrefix_take hthere) hne (0 + totalSize front)
  rw [hlength, Nat.zero_add] at htorn
  rw [List.flatMap_append, List.flatMap_cons, take_flatMap_wire _ hbefore.le,
    List.take_append_of_le_length hthere.le, start, items_flatMap_wire hfront, length_flatMap_wire,
    Nat.zero_add, htorn]

/-- A log that is cut at any byte reads as the records that lie wholly before the cut. Nothing follows
them if the cut is on a boundary, and otherwise the one failure that the record at the last boundary
before the cut is truncated: what is there of it, and the bytes that it needs, a header or all of it. -/
theorem items_take (encoder : Encoder) (hrs : ∀ r ∈ rs, r.payload.length ≤ maxPayload) :
    ∃ log, encoder.encodeAll rs = .ok log ∧ ∀ cut ≤ log.length, ∃ failure : Option DecodeError,
      ((start (log.take cut)).items).map (·.1) =
        (wholeBefore cut rs).map .ok ++ failure.toList.map .error ∧
      (failure = none ↔ IsBoundary rs cut) ∧
      ∀ e, failure = some e → ∃ offset r,
        IsGreatest {boundary | IsBoundary rs boundary ∧ boundary ≤ cut} offset ∧
        (offset, r) ∈ placed 0 rs ∧ offset < cut ∧ cut < offset + r.size ∧
        e = .truncated offset (r.needed (cut - offset)) (cut - offset) ∧
        cut - offset < r.needed (cut - offset) := by
  refine ⟨rs.flatMap Record.wire, Encoder.encodeAll_eq_ok_iff.2 ⟨hrs, rfl⟩, fun cut hcut => ?_⟩
  rw [length_flatMap_wire] at hcut
  rw [wholeBefore_eq, isBoundary_iff_fitting]
  have hgreatest := isGreatest_fitting cut rs
  rcases cut_cases hcut with hexact | ⟨r, behind, hsplit, hbefore, hbehind⟩
  · refine ⟨none, ?_, by simp [hexact], by simp⟩
    have hitems := items_take_boundary hrs (fitting_isPrefix cut rs)
    rw [hexact] at hitems
    rw [hitems, Option.toList_none, List.map_nil, List.append_nil]
  · have hitems := items_take_through (hsplit ▸ hrs) hbefore hbehind
    have hplaced := mem_placed (fitting cut rs) r behind 0
    rw [← hsplit] at hitems hplaced
    rw [Nat.zero_add] at hplaced
    refine ⟨some _, hitems, by simp [hbefore.ne], ?_⟩
    rintro e ⟨⟩
    exact ⟨_, r, hgreatest, hplaced, hbefore, hbehind, rfl, Record.lt_needed (by omega)⟩

def twoEvents : List Record := [default, ⟨2, default, .user, [7, 8, 9]⟩]

/-- The header of the second record and two bytes of its payload are before the cut. -/
theorem items_take_twoEvents :
    (∀ r ∈ twoEvents, r.payload.length ≤ maxPayload) ∧ ¬IsBoundary twoEvents 38 ∧
      ∃ log, Encoder.fresh.encodeAll twoEvents = .ok log ∧
        ((start (log.take 38)).items).map (·.1) = [.ok default, .error (.truncated 18 21 20)] := by
  have hfit : ∀ r ∈ twoEvents, r.payload.length ≤ maxPayload := by decide
  have hinside : ¬IsBoundary twoEvents 38 := by decide
  refine ⟨hfit, hinside, ?_⟩
  rcases items_take .fresh hfit with ⟨log, hlog, hcuts⟩
  have hwire := (Encoder.encodeAll_eq_ok_iff.1 hlog).2
  have hlength : 38 ≤ log.length := by
    rw [hwire, length_flatMap_wire]
    decide
  rcases hcuts 38 hlength with ⟨failure, hitems, hnone, hsome⟩
  rcases Option.ne_none_iff_exists'.1 (hnone.not.2 hinside) with ⟨e, rfl⟩
  rcases hsome e rfl with ⟨offset, r, -, hplaced, hbefore, hbehind, rfl, -⟩
  change (offset, r) ∈ [(0, default), (18, ⟨2, default, .user, [7, 8, 9]⟩)] at hplaced
  rcases List.mem_pair.1 hplaced with hfirst | hsecond
  · cases hfirst
    exact absurd hbehind (by decide)
  · cases hsecond
    exact ⟨log, hlog, hitems⟩

end RecordReader

end TraceJournal
