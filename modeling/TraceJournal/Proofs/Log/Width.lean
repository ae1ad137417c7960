import TraceJournal.Proofs.Log.Stages
import TraceJournal.Storage.Memory
import Mathlib

/-!
# Counting in words

What is counted is a 32-bit word, as is the budget; the length of a slice and the sum that is held
against the budget are 64-bit words. Between these widths nothing is lost: the sum does not wrap, and what
is handed to the medium is short enough to be counted.
-/
namespace TraceJournal.Writer

variable {σ η : Type} {w after : Writer σ η} {path : String} {bytes offered : List UInt8} {file : η}
  {result : Except LogError Disposition} {requests : List Request}

theorem Consistent.countsFromZero (h : w.Consistent) : w.CountsFromZero := by
  intro hf hn
  cases h.stage with
  | unnamed _ hnone => exact (hn hnone).elim
  | unopened _ _ hcount => exact hcount
  | opened hheld => simp [hf] at hheld

variable [Storage σ η]

/-- What taking a record asks of the medium. -/
def requestsOf (bytes : List UInt8) (w : Writer σ η) : List Request :=
  ((w.recording []).write bytes).2.medium.requests

theorem writes_requestsOf (hb : bytes.length < sliceLimit) (w : Writer σ η) :
    w.Writes bytes (w.write bytes).1 (w.requestsOf bytes) (w.write bytes).2 := by
  obtain ⟨requests, hw, hr⟩ := write_spec hb w
  have hq : w.requestsOf bytes = requests := by
    rw [requestsOf, hr]
    rfl
  rwa [hq]

/-- Bytes are handed to the medium only if they fit. -/
theorem Appends.fits_of_append (ha : w.Appends path bytes file result requests after)
    (hasked : .append offered ∈ requests) : w.byteCount.toNat + bytes.length ≤ w.maxSize.toNat := by
  cases ha with
  | capped => simp at hasked
  | written hfull hfit | failed hfull hfit => exact hfit

theorem Writes.fits_of_append (hw : w.Writes bytes result requests after) (h : w.CountsFromZero)
    (hasked : .append offered ∈ requests) : w.byteCount.toNat + bytes.length ≤ w.maxSize.toNat := by
  cases hw with
  | disabled | unconfigured | unavailable | openFailed => simp at hasked
  | opened he hn hq hf hc ha =>
    rcases List.mem_cons.1 hasked with hcreate | hasked
    · cases hcreate
    · have hfit := ha.fits_of_append hasked
      rwa [h hf (by simp [hn])]
  | held he hn hq hf ha => exact ha.fits_of_append hasked

/-- What has been counted never exceeds the budget. The sum that is held against the budget is the true
one, for any count, budget and slice, and so is the verdict. Whenever a slice is handed to the medium, its
length is a 32-bit word, which is not replaced by the largest one; adding it to the count does not wrap,
and the count after a success is the true sum. -/
theorem counting_exact :
    (∀ (medium : σ) (operations : List Operation),
      let w : Writer σ η := (new medium).after operations
      w.byteCount ≤ w.maxSize) ∧
    (∀ (w : Writer σ η) (n : Nat), n < sliceLimit →
      (w.byteCount.toUInt64 + UInt64.ofNat n).toNat = w.byteCount.toNat + n ∧
      (w.fits n = true ↔ w.byteCount.toNat + n ≤ w.maxSize.toNat)) ∧
    ∀ (medium : σ) (operations : List Operation) (slice : Slice),
      let w : Writer σ η := (new medium).after operations
      let n := slice.1.length
      .append slice.1 ∈ w.requestsOf slice.1 →
        n < UInt32.size ∧ (clampedLength n).toNat = n ∧
        w.byteCount.toNat + n < UInt32.size ∧
        (w.byteCount + clampedLength n).toNat = w.byteCount.toNat + n ∧
        ((w.write slice.1).1 = .ok (.written n) →
          (w.write slice.1).2.byteCount.toNat = w.byteCount.toNat + n) := by
  refine ⟨fun medium operations => ((consistent_new medium).after operations).byteCount_le,
    fun w n hn => ⟨toNat_toUInt64_add w.byteCount hn, w.fits_iff hn⟩, ?_⟩
  intro medium operations slice w n hasked
  have hzero : w.CountsFromZero := ((consistent_new medium).after operations).countsFromZero
  have hw := writes_requestsOf slice.2 w
  have hfit : w.byteCount.toNat + n ≤ w.maxSize.toNat := hw.fits_of_append hzero hasked
  have hbudget := w.maxSize.toNat_lt
  have hword : w.byteCount.toNat + n < UInt32.size := by
    simp only [UInt32.size]
    omega
  have hlength : n < UInt32.size := by omega
  refine ⟨hlength, toNat_clampedLength hlength, hword, w.toNat_add_clampedLength hfit, ?_⟩
  intro hwritten
  rw [hwritten] at hw
  exact hw.byteCount_eq hzero

/-- The longest slice beside a full count of the largest budget, and three bytes that are written. -/
theorem counting_exact_largest :
    let full : Writer Memory String :=
      { new Memory.empty with maxSize := 0xFFFFFFFF, byteCount := 0xFFFFFFFF }
    let chosen : Writer Memory String :=
      (new Memory.empty).after [.setLogFile "trace.bin" 0xFFFFFFFF]
    full.byteCount ≤ full.maxSize ∧ sliceLimit - 1 < sliceLimit ∧
      full.fits (sliceLimit - 1) = false ∧
      .append [1, 2, 3] ∈ chosen.requestsOf [1, 2, 3] ∧
      (clampedLength 3).toNat = 3 ∧ (chosen.write [1, 2, 3]).2.byteCount.toNat = 3 := by
  intro full chosen
  obtain ⟨-, hexact, hcounted⟩ := counting_exact (σ := Memory) (η := String)
  have hlongest : sliceLimit - 1 < sliceLimit := by decide
  have hslice : [1, 2, 3].length < sliceLimit := by decide
  have hrequests : chosen.requestsOf [1, 2, 3] = [.create "trace.bin", .append [1, 2, 3]] := by
    cbv
  have hasked : .append [1, 2, 3] ∈ chosen.requestsOf [1, 2, 3] := by simp [hrequests]
  have hwritten : (chosen.write [1, 2, 3]).1 = .ok (.written 3) := by cbv
  obtain ⟨-, hlength, -, -, hcount⟩ := hcounted Memory.empty _ ⟨[1, 2, 3], hslice⟩ hasked
  refine ⟨by decide, hlongest, ?_, hasked, hlength, hcount hwritten⟩
  rw [← Bool.not_eq_true, (hexact full _ hlongest).2]
  decide

end TraceJournal.Writer
