import TraceJournal.Proofs.Log.Latches

/-!
# What the counter counts

The counter grows by what is answered to have been written and starts again at zero when a file is
chosen. Creating the file does not set it back: a file that is yet to be created is counted from zero
in every state that a log can be in.
-/
namespace TraceJournal

variable {σ η ξ : Type} [Storage σ η]

def Answer.written : Answer → Nat
  | traced (.ok (.written bytes)) => bytes
  | _ => 0

namespace Writer

/-- A writer that has a name but no file yet has counted nothing. A writer without a name may keep
the count of the file that it has closed. -/
def CountsFromZero (w : Writer σ η) : Prop :=
  w.file = none → w.fileName ≠ none → w.byteCount = 0

variable {w after : Writer σ η} {path : String} {bytes : List UInt8} {file : η}
  {result : Except LogError Disposition} {requests : List Request}

theorem Appends.byteCount_eq (ha : w.Appends path bytes file result requests after) :
    after.byteCount.toNat = w.byteCount.toNat + (Answer.traced result).written := by
  cases ha with
  | capped | failed => rfl
  | written hfull hfit hw hcount => exact hcount

theorem Appends.length_of_written {n : Nat}
    (ha : w.Appends path bytes file (.ok (.written n)) requests after) : n = bytes.length := by
  cases ha
  rfl

theorem Writes.length_of_written {n : Nat}
    (hw : w.Writes bytes (.ok (.written n)) requests after) : n = bytes.length := by
  cases hw with
  | opened he hn hq hf hc ha => exact ha.length_of_written
  | held he hn hq hf ha => exact ha.length_of_written

theorem Writes.byteCount_eq (hw : w.Writes bytes result requests after) (h : w.CountsFromZero) :
    after.byteCount.toNat = w.byteCount.toNat + (Answer.traced result).written := by
  cases hw with
  | disabled | unconfigured | unavailable | openFailed => rfl
  | opened he hn hq hf hc ha =>
    rw [ha.byteCount_eq, h hf (by simp [hn])]
  | held he hn hq hf ha => exact ha.byteCount_eq

theorem Writes.countsFromZero (hw : w.Writes bytes result requests after)
    (h : w.CountsFromZero) : after.CountsFromZero := by
  cases hw with
  | disabled | unconfigured | unavailable | openFailed => exact h
  | opened he hn hq hf hc ha =>
    intro hnone
    simp [ha.file_eq] at hnone
  | held he hn hq hf ha =>
    intro hnone
    simp [ha.file_eq, hf] at hnone

end Writer

namespace Logger

namespace Performs

variable [Exporter ξ σ] {l l' : Logger σ η ξ} {e : Event}

theorem countsFromZero (hp : l.Performs e l') (h : l.writer.CountsFromZero) :
    l'.writer.CountsFromZero := by
  cases hp with
  | chosen hchoice hw =>
    cases hw with
    | alreadyOpen => exact h
    | refused => exact fun _ hn => (hn rfl).elim
    | accepted => exact fun _ _ => rfl
  | closed hw =>
    cases hw with
    | idle => exact h
    | released => exact fun _ hn => (hn rfl).elim
  | switched | undelivered | delivered | gated | refused => exact h
  | offered he hr hw => exact hw.countsFromZero h

/-- As long as no file is chosen, the counter grows by what is written. -/
theorem byteCount_eq (hp : l.Performs e l') (h : l.writer.CountsFromZero)
    (hc : e.configured? = none) :
    l'.writer.byteCount.toNat = l.writer.byteCount.toNat + e.answer.written := by
  cases hp with
  | chosen hchoice hw =>
    cases hw with
    | alreadyOpen | refused => rfl
    | accepted => simp [Event.configured?, hchoice] at hc
  | closed hw => cases hw <;> rfl
  | switched | undelivered | delivered | gated | refused => rfl
  | offered he hr hw => exact hw.byteCount_eq h

theorem byteCount_of_configured (hp : l.Performs e l') {path : String}
    (hc : e.configured? = some path) : l'.writer.byteCount = 0 := by
  cases hp with
  | chosen hchoice hw =>
    simp only [Event.configured?, eventOf_call, eventOf_answer, hchoice] at hc
    cases hw with
    | alreadyOpen | refused => cases hc
    | accepted => rfl
  | closed | switched | undelivered | delivered | gated | refused | offered => cases hc

end Performs

variable [Exporter ξ σ]

/-- The states of a log, whatever is called, whichever exporters are attached meanwhile, whatever
bytes are handed to its writer directly, and whatever happens to the medium from outside. -/
inductive Reachable : Logger σ η ξ → Prop
  | new (medium : σ) : Reachable (new medium)
  | perform {l : Logger σ η ξ} (h : Reachable l) (call : Call) : Reachable (l.perform call).2
  | setExporter {l : Logger σ η ξ} (h : Reachable l) (exporter : Option ξ) :
      Reachable (l.setExporter exporter)
  | write {l : Logger σ η ξ} (h : Reachable l) {bytes : List UInt8}
      (hb : bytes.length < Writer.sliceLimit) :
      Reachable { l with writer := (l.writer.write bytes).2 }
  | setMedium {l : Logger σ η ξ} (h : Reachable l) (medium : σ) :
      Reachable { l with writer := { l.writer with medium } }

theorem Reachable.after {l : Logger σ η ξ} (h : l.Reachable) (calls : List Call) :
    (l.after calls).Reachable := by
  induction calls generalizing l with
  | nil => exact h
  | cons call calls ih => exact ih (h.perform call)

theorem Reachable.countsFromZero {l : Logger σ η ξ} (h : l.Reachable) :
    l.writer.CountsFromZero := by
  induction h with
  | new => exact fun _ hn => (hn rfl).elim
  | @perform l _ call ih => exact (l.perform_spec call).countsFromZero ih
  | setExporter _ _ ih => exact ih
  | @write l _ bytes hb ih =>
    obtain ⟨requests, hw, -⟩ := Writer.write_spec hb l.writer
    exact hw.countsFromZero ih
  | setMedium _ _ ih => exact ih

end Logger

end TraceJournal
