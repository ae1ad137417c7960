import TraceJournal.Proofs.Log.Counter

/-!
# Stages of a writer

A writer has no file name, or it has one and no file has been made of it yet, or it holds the file. In
each stage only some counts, latches and faults are possible. None of these rules is kept by itself:
that a file which is yet to be opened has no latch, for example, rests on a held file having a name.
-/
namespace TraceJournal

variable {σ η ξ : Type}

namespace Writer

/-- Bytes that are stored one behind the other, so that there cannot be more of them than addresses. -/
abbrev Slice : Type := { bytes : List UInt8 // bytes.length < sliceLimit }

inductive Operation where
  | setLogFile (name : String) (maxSize : UInt32)
  | configure (name : String)
  | setEnabled (enabled : Bool)
  | write (bytes : Slice)
  | close

/-- How far a writer has come with its file. -/
inductive Stage (w : Writer σ η) : Prop
  | unnamed (hf : w.file = none) (hn : w.fileName = none)
  | unopened {name : String} (hf : w.file = none) (hn : w.fileName = some name)
      (hcount : w.byteCount = 0) (hfull : w.full = false)
      (hq : w.fault = none ∨ w.fault = some .openFailed)
  | opened {file : η} {name : String} (hf : w.file = some file) (hn : w.fileName = some name)
      (hq : w.fault ≠ some .openFailed)

/-- A writer at a stage, with a name that can be used and no more bytes than its budget. -/
structure Consistent (w : Writer σ η) : Prop where
  stage : w.Stage
  usable : ∀ name, w.fileName = some name → nameFault? name = none
  byteCount_le : w.byteCount ≤ w.maxSize

theorem consistent_new (medium : σ) : (new medium : Writer σ η).Consistent where
  stage := .unnamed rfl rfl
  usable _ hn := nomatch hn
  byteCount_le := UInt32.zero_le

namespace Consistent

variable {w after : Writer σ η} {name path : String} {maxSize : UInt32} {bytes : List UInt8} {file : η}

theorem named (h : w.Consistent) : w.Named := by
  intro hheld
  cases h.stage with
  | unnamed hf | unopened hf => exact (hheld hf).elim
  | opened hf hn => simp [hn]

theorem file_eq_none (h : w.Consistent) (hidle : w.file = none ∨ w.fileName = none) :
    w.file = none := by
  rcases hidle with hf | hn
  · exact hf
  · cases h.stage with
    | unnamed hf | unopened hf => exact hf
    | opened _ hname => simp [hn] at hname

theorem outside (h : w.Consistent) (medium : σ) (enabled : Bool) :
    Consistent { w with medium, enabled } where
  stage := by
    cases h.stage with
    | unnamed hf hn => exact .unnamed hf hn
    | unopened hf hn hcount hfull hq => exact .unopened hf hn hcount hfull hq
    | opened hf hn hq => exact .opened hf hn hq
  usable := h.usable
  byteCount_le := h.byteCount_le

theorem configures {result : Except LogError Unit} (h : w.Consistent)
    (hw : w.Configures name maxSize result after) : after.Consistent := by
  cases hw with
  | alreadyOpen => exact h
  | refused hidle => exact ⟨.unnamed (h.file_eq_none hidle) rfl, nofun, h.byteCount_le⟩
  | accepted hidle husable =>
    refine ⟨.unopened (h.file_eq_none hidle) rfl rfl rfl (.inl rfl), ?_, UInt32.zero_le⟩
    rintro chosen ⟨⟩
    exact husable

variable [Storage σ η]

theorem appends {result : Except LogError Disposition} {requests : List Request}
    (h : w.Consistent) (hf : w.file = some file)
    (ha : w.Appends path bytes file result requests after) : after.Consistent := by
  have husable : ∀ name, after.fileName = some name → nameFault? name = none := by
    rw [ha.fileName_eq]
    exact h.usable
  cases h.stage with
  | unnamed hnone | unopened hnone => simp [hf] at hnone
  | opened _ hn hq =>
    cases ha with
    | capped => exact ⟨.opened hf hn hq, husable, h.byteCount_le⟩
    | written hfull hfit hw hcount =>
      refine ⟨.opened hf hn hq, husable, ?_⟩
      rw [UInt32.le_iff_toNat_le, hcount]
      exact hfit
    | failed => exact ⟨.opened hf hn (by simp), husable, h.byteCount_le⟩

theorem writes {result : Except LogError Disposition} {requests : List Request}
    (h : w.Consistent) (hw : w.Writes bytes result requests after) : after.Consistent := by
  cases hw with
  | disabled | unconfigured | unavailable => exact h
  | openFailed he hn hq hf =>
    cases h.stage with
    | unnamed _ hnone => simp [hn] at hnone
    | unopened _ _ hcount hfull =>
      exact ⟨.unopened hf hn hcount hfull (.inr rfl), h.usable, h.byteCount_le⟩
    | opened hheld => simp [hf] at hheld
  | @opened _ file medium _ _ _ he hn hq hf hc ha =>
    have hopened : Consistent { w with
        medium := medium, file := some file, byteCount := 0, full := false } :=
      ⟨.opened rfl hn (by simp [hq]), h.usable, UInt32.zero_le⟩
    exact hopened.appends rfl ha
  | held he hn hq hf ha => exact h.appends hf ha

theorem closes {result : Except LogError Unit} {requests : List Request} (h : w.Consistent)
    (hw : w.Closes result requests after) : after.Consistent := by
  cases hw with
  | idle => exact h
  | released => exact ⟨.unnamed rfl rfl, nofun, h.byteCount_le⟩

end Consistent

variable [Storage σ η] {w : Writer σ η}

def perform (operation : Operation) (w : Writer σ η) : Writer σ η :=
  match operation with
  | .setLogFile name maxSize => (w.setLogFile name maxSize).2
  | .configure name => (w.configure name).2
  | .setEnabled enabled => w.setEnabled enabled
  | .write bytes => (w.write bytes.1).2
  | .close => w.close.2

def after (operations : List Operation) (w : Writer σ η) : Writer σ η :=
  operations.foldl (fun w operation => w.perform operation) w

theorem Consistent.perform (h : w.Consistent) (operation : Operation) :
    (w.perform operation).Consistent := by
  cases operation with
  | setLogFile name maxSize => exact h.configures (setLogFile_spec name maxSize w)
  | configure name => exact h.configures (setLogFile_spec name defaultMaxSize w)
  | setEnabled enabled => exact h.outside w.medium enabled
  | write bytes =>
    obtain ⟨requests, hw, -⟩ := write_spec bytes.2 w
    exact h.writes hw
  | close =>
    obtain ⟨requests, hw, -⟩ := w.close_spec
    exact h.closes hw

theorem Consistent.after (h : w.Consistent) (operations : List Operation) :
    (w.after operations).Consistent := by
  induction operations generalizing w with
  | nil => exact h
  | cons operation operations ih => exact ih (h.perform operation)

/-- The step that opens the file leaves one to append to, unless it fails. -/
theorem file_of_ensureOpen {path : String} {opened : Writer σ η}
    (h : w.ensureOpen path = (.ok (), opened)) : opened.file ≠ none := by
  unfold ensureOpen at h
  split at h
  · next file hf =>
    cases h
    simp [hf]
  · split at h
    · cases h
      simp
    · cases h

theorem Writes.fault_of_unavailable {bytes : List UInt8} {requests : List Request}
    {after : Writer σ η} (hw : w.Writes bytes (.ok .unavailable) requests after) :
    w.fault ≠ none := by
  cases hw with
  | unavailable he hn hq => simp [hq]
  | opened he hn hq hf hc ha | held he hn hq hf ha => cases ha

/-- Whatever is asked of a new writer, in whatever order and however the medium answers: a file is
held only under a name, which is neither empty nor too long; no more is counted than the budget; a
name without a file has no count, no full file and no failed write behind it; each fault tells whether
the file is held; and a record never gets past the opening of the file without one to be appended to,
so that only a fault makes the file unavailable. -/
theorem consistent_after (medium : σ) (operations : List Operation) :
    let w : Writer σ η := (new medium).after operations
    (w.file ≠ none → w.fileName ≠ none) ∧
    (∀ name, w.fileName = some name →
      1 ≤ name.utf8ByteSize ∧ name.utf8ByteSize ≤ maxNameLength) ∧
    w.byteCount ≤ w.maxSize ∧
    (w.file = none → w.fileName ≠ none →
      w.byteCount = 0 ∧ w.full = false ∧ (w.fault = none ∨ w.fault = some .openFailed)) ∧
    (w.fault = some .openFailed → w.file = none) ∧
    (w.fault = some .writeFailed → w.fileName ≠ none → w.file ≠ none) ∧
    (∀ path opened, w.ensureOpen path = (.ok (), opened) → opened.file ≠ none) ∧
    ∀ bytes : Slice, (w.write bytes.1).1 = .ok .unavailable → w.fault ≠ none := by
  intro w
  have h : w.Consistent := (consistent_new medium).after operations
  refine ⟨h.named, fun name hn => nameFault?_eq_none_iff.1 (h.usable name hn), h.byteCount_le,
    ?_, ?_, ?_, fun _ _ => file_of_ensureOpen, ?_⟩
  · intro hf hn
    cases h.stage with
    | unnamed _ hnone => exact (hn hnone).elim
    | unopened _ _ hcount hfull hq => exact ⟨hcount, hfull, hq⟩
    | opened hheld => simp [hf] at hheld
  · intro hq
    cases h.stage with
    | unnamed hf | unopened hf => exact hf
    | opened _ _ hother => exact (hother hq).elim
  · intro hq hn
    cases h.stage with
    | unnamed _ hnone => exact (hn hnone).elim
    | unopened _ _ _ _ hother => simp [hq] at hother
    | opened hheld => simp [hheld]
  · intro bytes hanswer
    obtain ⟨requests, hw, -⟩ := write_spec bytes.2 w
    rw [hanswer] at hw
    exact hw.fault_of_unavailable

end Writer

namespace Logger

variable [Storage σ η] [Exporter ξ σ] {l : Logger σ η ξ}

theorem Performs.consistent {l' : Logger σ η ξ} {e : Event} (hp : l.Performs e l')
    (h : l.writer.Consistent) : l'.writer.Consistent := by
  cases hp with
  | chosen hchoice hw => exact h.configures hw
  | closed hw => exact h.closes hw
  | switched enable => exact h.outside l.writer.medium enable
  | undelivered | gated | refused => exact h
  | delivered => exact h.outside _ l.writer.enabled
  | offered he hr hw => exact h.writes hw

theorem Reachable.consistent (h : l.Reachable) : l.writer.Consistent := by
  induction h with
  | new medium => exact Writer.consistent_new medium
  | @perform l _ call ih => exact (l.perform_spec call).consistent ih
  | setExporter _ _ ih => exact ih
  | @write l _ bytes hb ih =>
    obtain ⟨requests, hw, -⟩ := Writer.write_spec hb l.writer
    exact ih.writes hw
  | @setMedium l _ medium ih => exact ih.outside medium l.writer.enabled

end Logger

end TraceJournal
