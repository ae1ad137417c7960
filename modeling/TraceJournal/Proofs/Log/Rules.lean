import TraceJournal.Proofs.Log.Recorded
import Mathlib.Tactic.SplitIfs

/-!
# The rules of a writer

Each operation of a writer as a set of rules, one for each thing that it can do: what has to
hold, what is answered, what is asked of the medium, and the writer after it. An operation always
follows one of its rules, so what a rule does not allow never happens.
-/
namespace TraceJournal

namespace Writer

variable {σ η : Type}

/-- Why a name cannot be used, if it cannot. -/
def nameFault? (name : String) : Option LogError :=
  if name.utf8ByteSize = 0 then some .missingName
  else if maxNameLength < name.utf8ByteSize then some (.nameTooLong name.utf8ByteSize)
  else none

theorem nameFault?_eq_none_iff {name : String} :
    nameFault? name = none ↔ 1 ≤ name.utf8ByteSize ∧ name.utf8ByteSize ≤ maxNameLength := by
  unfold nameFault?
  split_ifs with h0 h1
  · simp [h0]
  · simp only [false_iff, not_and]
    omega
  · simp only [true_iff]
    omega

/-- What a choice of a file and a budget does. -/
inductive Configures (name : String) (maxSize : UInt32) (w : Writer σ η) :
    Except LogError Unit → Writer σ η → Prop
  | alreadyOpen {file : η} {path : String} (hf : w.file = some file) (hn : w.fileName = some path) :
      Configures name maxSize w (.error (.alreadyOpen path)) w
  | refused {e : LogError} (hw : w.file = none ∨ w.fileName = none)
      (he : nameFault? name = some e) :
      Configures name maxSize w (.error e) { w with fileName := none }
  | accepted (hw : w.file = none ∨ w.fileName = none) (he : nameFault? name = none) :
      Configures name maxSize w (.ok ()) { w with
        fileName := some name, maxSize := maxSize, byteCount := 0, full := false, fault := none }

theorem setLogFile_spec (name : String) (maxSize : UInt32) (w : Writer σ η) :
    w.Configures name maxSize (w.setLogFile name maxSize).1 (w.setLogFile name maxSize).2 := by
  unfold setLogFile
  split
  · next file path hf hn => exact .alreadyOpen hf hn
  · next ho =>
    have hw : w.file = none ∨ w.fileName = none := by
      cases hf : w.file with
      | none => exact .inl rfl
      | some file =>
        cases hn : w.fileName with
        | none => exact .inr rfl
        | some path => exact (ho file path hf hn).elim
    dsimp only
    split_ifs with h0 h1
    · exact .refused hw (by simp [nameFault?, h0])
    · exact .refused hw (by simp [nameFault?, h0, h1])
    · exact .accepted hw (by simp [nameFault?, h0, h1])

theorem setLogFile_recording (name : String) (maxSize : UInt32) (w : Writer σ η)
    (r : List Request) :
    (w.recording r).setLogFile name maxSize =
      ((w.setLogFile name maxSize).1, (w.setLogFile name maxSize).2.recording r) := by
  unfold setLogFile recording
  dsimp only
  split
  · rfl
  · split_ifs <;> rfl

def sliceLimit : Nat := 0x8000000000000000

/-- A 64-bit word has room for any count and the length of any slice. -/
theorem toNat_toUInt64_add (count : UInt32) {n : Nat} (h : n < sliceLimit) :
    (count.toUInt64 + UInt64.ofNat n).toNat = count.toNat + n := by
  rw [sliceLimit] at h
  have hc := count.toNat_lt
  rw [UInt64.toNat_add, UInt32.toNat_toUInt64, UInt64.toNat_ofNat_of_lt' (by
    simp only [UInt64.size]; omega)]
  omega

/-- The budget test is exact for every length that a slice can have. -/
theorem fits_iff (w : Writer σ η) {n : Nat} (h : n < sliceLimit) :
    w.fits n = true ↔ w.byteCount.toNat + n ≤ w.maxSize.toNat := by
  rw [fits, decide_eq_true_iff, UInt64.le_iff_toNat_le, toNat_toUInt64_add _ h,
    UInt32.toNat_toUInt64]

theorem toNat_clampedLength {n : Nat} (h : n < UInt32.size) : (clampedLength n).toNat = n := by
  rw [clampedLength, if_pos h, UInt32.toNat_ofNat_of_lt' h]

/-- Counting bytes that fit does not overflow. -/
theorem toNat_add_clampedLength (w : Writer σ η) {n : Nat}
    (h : w.byteCount.toNat + n ≤ w.maxSize.toNat) :
    (w.byteCount + clampedLength n).toNat = w.byteCount.toNat + n := by
  have hm := w.maxSize.toNat_lt
  have hn : n < UInt32.size := by
    simp only [UInt32.size]
    omega
  rw [UInt32.toNat_add, toNat_clampedLength hn]
  omega

variable [Storage σ η]

/-- What happens to bytes that reach the open file at `path`. -/
inductive Appends (path : String) (bytes : List UInt8) (file : η) (w : Writer σ η) :
    Except LogError Disposition → List Request → Writer σ η → Prop
  | capped (h : w.full = true ∨ w.maxSize.toNat < w.byteCount.toNat + bytes.length) :
      Appends path bytes file w (.ok .capReached) [] { w with full := true }
  | written {medium : σ} {count : UInt32} (hfull : w.full = false)
      (hfit : w.byteCount.toNat + bytes.length ≤ w.maxSize.toNat)
      (hw : Storage.writeAll file bytes w.medium = (.ok (), medium))
      (hcount : count.toNat = w.byteCount.toNat + bytes.length) :
      Appends path bytes file w (.ok (.written bytes.length)) [.append bytes]
        { w with medium := medium, byteCount := count }
  | failed {source : IoError} {medium : σ} (hfull : w.full = false)
      (hfit : w.byteCount.toNat + bytes.length ≤ w.maxSize.toNat)
      (hw : Storage.writeAll file bytes w.medium = (.error source, medium)) :
      Appends path bytes file w (.error (.writeFailed path source)) [.append bytes]
        { w with medium := medium, fault := some .writeFailed }

theorem append_spec (path : String) {bytes : List UInt8} (hb : bytes.length < sliceLimit)
    {w : Writer σ η} {file : η} (hf : w.file = some file) :
    ∃ requests, w.Appends path bytes file (w.append path bytes).1 requests
        (w.append path bytes).2 ∧
      ∀ r, (w.recording r).append path bytes =
        ((w.append path bytes).1, (w.append path bytes).2.recording (r ++ requests)) := by
  have hfits := w.fits_iff hb
  have hrf : ∀ r, (w.recording r).file = some file := fun _ => hf
  by_cases h : (w.full || !w.fits bytes.length) = true
  · have hr : ∀ r, ((w.recording r).full || !(w.recording r).fits bytes.length) = true :=
      fun _ => h
    have hcap : w.full = true ∨ w.maxSize.toNat < w.byteCount.toNat + bytes.length := by
      rw [Bool.or_eq_true, Bool.not_eq_true', ← Bool.not_eq_true, hfits, Nat.not_le] at h
      exact h
    rw [append, if_pos h]
    refine ⟨[], .capped hcap, fun r => ?_⟩
    rw [append, if_pos (hr r), List.append_nil]
    rfl
  · obtain ⟨hfull, hfit⟩ : w.full = false ∧ w.fits bytes.length = true := by simpa using h
    have hrfull : ∀ r, (w.recording r).full = false := fun _ => hfull
    have hrfit : ∀ r, (w.recording r).fits bytes.length = true := fun _ => hfit
    rcases hw : Storage.writeAll file bytes w.medium with ⟨source | _, medium⟩
    · have ha : w.append path bytes = (.error (.writeFailed path source),
          { w with medium := medium, fault := some .writeFailed }) := by
        simp [append, hfull, hfit, hf, hw]
      have har : ∀ r, (w.recording r).append path bytes = (.error (.writeFailed path source),
          recording (r ++ [.append bytes])
            { w with medium := medium, fault := some .writeFailed }) := by
        intro r
        simp only [append, hrfull, hrfit, hrf]
        simp [recording, Storage.writeAll, hw, hf, hfull]
      rw [ha]
      exact ⟨[.append bytes], .failed hfull (hfits.1 hfit) hw, har⟩
    · have ha : w.append path bytes = (.ok (.written bytes.length),
          { w with medium := medium, byteCount := w.byteCount + clampedLength bytes.length }) := by
        simp [append, hfull, hfit, hf, hw]
      have har : ∀ r, (w.recording r).append path bytes = (.ok (.written bytes.length),
          recording (r ++ [.append bytes]) { w with
            medium := medium, byteCount := w.byteCount + clampedLength bytes.length }) := by
        intro r
        simp only [append, hrfull, hrfit, hrf]
        simp [recording, Storage.writeAll, hw, hf, hfull]
      have hcount := w.toNat_add_clampedLength (hfits.1 hfit)
      rw [ha]
      exact ⟨[.append bytes], .written hfull (hfits.1 hfit) hw hcount, har⟩

/-- What happens to the bytes of one record. -/
inductive Writes (bytes : List UInt8) (w : Writer σ η) :
    Except LogError Disposition → List Request → Writer σ η → Prop
  | disabled (he : w.enabled = false) : Writes bytes w (.ok .disabled) [] w
  | unconfigured (he : w.enabled = true) (hn : w.fileName = none) :
      Writes bytes w (.ok .unconfigured) [] w
  | unavailable {path : String} {fault : Fault} (he : w.enabled = true)
      (hn : w.fileName = some path) (hq : w.fault = some fault) :
      Writes bytes w (.ok .unavailable) [] w
  | openFailed {path : String} {source : IoError} {medium : σ} (he : w.enabled = true)
      (hn : w.fileName = some path) (hq : w.fault = none) (hf : w.file = none)
      (hc : Storage.create path w.medium = (.error source, medium)) :
      Writes bytes w (.error (.openFailed path source)) [.create path]
        { w with medium := medium, fault := some .openFailed }
  | opened {path : String} {file : η} {medium : σ} {result : Except LogError Disposition}
      {requests : List Request} {after : Writer σ η} (he : w.enabled = true)
      (hn : w.fileName = some path) (hq : w.fault = none) (hf : w.file = none)
      (hc : Storage.create path w.medium = (.ok file, medium))
      (ha : Appends path bytes file
        { w with medium := medium, file := some file, byteCount := 0, full := false }
        result requests after) :
      Writes bytes w result (.create path :: requests) after
  | held {path : String} {file : η} {result : Except LogError Disposition}
      {requests : List Request} {after : Writer σ η} (he : w.enabled = true)
      (hn : w.fileName = some path) (hq : w.fault = none) (hf : w.file = some file)
      (ha : Appends path bytes file w result requests after) :
      Writes bytes w result requests after

theorem write_spec {bytes : List UInt8} (hb : bytes.length < sliceLimit) (w : Writer σ η) :
    ∃ requests, w.Writes bytes (w.write bytes).1 requests (w.write bytes).2 ∧
      ∀ r, (w.recording r).write bytes =
        ((w.write bytes).1, (w.write bytes).2.recording (r ++ requests)) := by
  cases he : w.enabled with
  | false =>
    exact ⟨[], by simpa [write, he] using Writes.disabled he, by simp [write, recording, he]⟩
  | true =>
    cases hn : w.fileName with
    | none =>
      exact ⟨[], by simpa [write, he, hn] using Writes.unconfigured he hn,
        by simp [write, recording, he, hn]⟩
    | some path =>
      cases hq : w.fault with
      | some fault =>
        exact ⟨[], by simpa [write, he, hn, hq] using Writes.unavailable he hn hq,
          by simp [write, recording, he, hn, hq]⟩
      | none =>
        cases hf : w.file with
        | some file =>
          obtain ⟨requests, ha, hr⟩ := append_spec path hb hf
          have hw : w.write bytes = w.append path bytes := by
            simp [write, ensureOpen, he, hn, hq, hf]
          have hwr : ∀ r, (w.recording r).write bytes = (w.recording r).append path bytes := by
            simp [write, ensureOpen, recording, he, hn, hq, hf]
          rw [hw]
          refine ⟨requests, .held he hn hq hf ha, fun r => ?_⟩
          rw [hwr, hr]
        | none =>
          rcases hc : Storage.create path w.medium with ⟨source | file, medium⟩
          · have hw : w.write bytes = (.error (.openFailed path source),
                { w with medium := medium, fault := some .openFailed }) := by
              simp [write, ensureOpen, he, hn, hq, hf, hc]
            rw [hw]
            exact ⟨[.create path], .openFailed he hn hq hf hc,
              by simp [write, ensureOpen, recording, Storage.create, he, hn, hq, hf, hc]⟩
          · -- The file is open now, with nothing in it.
            let o : Writer σ η :=
              { w with medium := medium, file := some file, byteCount := 0, full := false }
            obtain ⟨requests, ha, hr⟩ := append_spec (w := o) path hb rfl
            have hw : w.write bytes = o.append path bytes := by
              simp [write, ensureOpen, o, he, hn, hq, hf, hc]
            have hwr : ∀ r, (w.recording r).write bytes =
                (o.recording (r ++ [.create path])).append path bytes := by
              simp [write, ensureOpen, recording, Storage.create, o, he, hn, hq, hf, hc]
            rw [hw]
            refine ⟨.create path :: requests, .opened he hn hq hf hc ha, fun r => ?_⟩
            rw [hwr, hr, List.append_assoc, List.singleton_append]

inductive Closes (w : Writer σ η) :
    Except LogError Unit → List Request → Writer σ η → Prop
  | idle (hf : w.file = none) : Closes w (.ok ()) [] w
  | released {file : η} {result : Except IoError Unit} {medium : σ} (hf : w.file = some file)
      (hm : Storage.flush file w.medium = (result, medium)) :
      Closes w (result.mapError (.writeFailed (w.fileName.getD ""))) [.flush]
        { w with medium := medium, file := none, fileName := none }

theorem close_spec (w : Writer σ η) :
    ∃ requests, w.Closes w.close.1 requests w.close.2 ∧
      ∀ r, (w.recording r).close = (w.close.1, w.close.2.recording (r ++ requests)) := by
  cases hf : w.file with
  | none => exact ⟨[], by simpa [close, hf] using Closes.idle hf, by simp [close, recording, hf]⟩
  | some file =>
    refine ⟨[.flush], ?_⟩
    rcases hm : Storage.flush file w.medium with ⟨_ | _, medium⟩
    · exact ⟨by simpa [close, hf, hm, Except.mapError] using Closes.released hf hm,
        by simp [close, recording, Storage.flush, hf, hm]⟩
    · exact ⟨by simpa [close, hf, hm, Except.mapError] using Closes.released hf hm,
        by simp [close, recording, Storage.flush, hf, hm]⟩

end Writer

end TraceJournal
