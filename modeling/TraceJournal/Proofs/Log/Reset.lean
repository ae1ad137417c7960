import TraceJournal.Proofs.Log.Latches
import TraceJournal.Storage.Memory
import Mathlib

/-!
# Closing a log

A log without a file name tells every record so and leaves the medium alone. Closing brings a log
into that state exactly if its file was open, or if it had no name already: a name whose file has
never been opened outlives the call.
-/
namespace TraceJournal

namespace Logger

variable {σ η ξ : Type} [Storage σ η] [Exporter ξ σ]

/-- Until a file is chosen, every record that is offered is told that there is none, and no file is
created or appended to. -/
def Idle (l : Logger σ η ξ) : Prop :=
  ∀ calls, (∀ e ∈ l.events calls, e.configured? = none) → ∀ e ∈ l.events calls,
    e.Quiet ∧ ∀ r, e.offered? = some r → e.answer = .traced (.ok .unconfigured)

theorem idle_of_fileName {l : Logger σ η ξ} (hn : l.writer.fileName = none) : l.Idle := by
  intro calls hc
  refine (events_induction (P := fun l => l.writer.fileName = none) ?_ hn hc).1
  intro l e l' hn hp hc
  obtain ⟨hq, -, ha⟩ := hp.of_unready (.inl hn)
  refine ⟨⟨hq, fun r hr => ?_⟩, ?_⟩
  · rw [ha r hr, if_pos hn]
  · rw [hp.fileName_eq hc, hn, ite_self]

/-- A log that has a name does not answer that it has none: opening the gate and offering a record
brings this out. -/
theorem fileName_of_idle {l : Logger σ η ξ} (h : l.Idle) : l.writer.fileName = none := by
  let opened := l.setEnabled true
  have hevents : l.events [.enableTrace true, .log default] =
      [l.event (.enableTrace true), opened.event (.log default)] := rfl
  have hc : ∀ e ∈ l.events [.enableTrace true, .log default], e.configured? = none := by
    rw [hevents]
    simp [event, eventOf, Event.configured?, Call.choice?]
  have hr : (opened.event (.log default)).offered? = some default := rfl
  have hlast := (h _ hc (opened.event (.log default)) (by simp [hevents])).2 _ hr
  exact (opened.perform_spec (.log default)).fileName_eq_none hlast

/-- A log is idle exactly if it has no file name. -/
theorem idle_iff {l : Logger σ η ξ} : l.Idle ↔ l.writer.fileName = none :=
  ⟨fileName_of_idle, idle_of_fileName⟩

/-- After `closeFile` the log is closed, whatever the flush answered. It is idle exactly if its file
was open or it had no name. -/
theorem closeFile_idle_iff (l : Logger σ η ξ) :
    l.closeFile.2.writer.mode = .closed ∧
      (l.closeFile.2.Idle ↔ l.writer.mode = .opened ∨ l.writer.fileName = none) := by
  rw [idle_iff]
  obtain ⟨requests, hw, -⟩ := l.writer.close_spec
  change l.writer.close.2.mode = _ ∧ (l.writer.close.2.fileName = _ ↔ _)
  generalize l.writer.close.1 = result, l.writer.close.2 = w at hw ⊢
  cases hw with
  | idle hf => simp [Writer.mode, hf]
  | released hf hm => simp [Writer.mode, hf]

set_option maxRecDepth 4000 in
/-- A log that has been given a name and no record yet is not idle after `closeFile`: it still has
the name, creates the file at the next record and writes the record to it. -/
theorem closeFile_keeps_name :
    let l : Logger Memory String (List ExportRequest) :=
      (new Memory.empty).after [.setLogFile "trace.bin" 100, .closeFile]
    l.writer.fileName = some "trace.bin" ∧ ¬ l.Idle ∧
      (l.event (.log default)).offered? = some default ∧
      (l.event (.log default)).created = ["trace.bin"] ∧
      (l.event (.log default)).written? = some default := by
  intro l
  have hn : l.writer.fileName = some "trace.bin" := rfl
  have hidle : ¬ l.Idle := by
    rw [idle_iff, hn]
    simp
  exact ⟨hn, hidle, rfl, by cbv, by cbv⟩

end Logger

end TraceJournal
