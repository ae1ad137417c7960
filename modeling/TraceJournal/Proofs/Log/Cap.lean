import TraceJournal.Proofs.Log.Counter
import TraceJournal.Proofs.Storage.Laws
import Mathlib

/-!
# A log that has met its budget

The first record that does not fit makes the file full. From then on, until a file is chosen, the log
neither creates a file nor appends to one, whatever it is offered: either it holds the full file
still, or it has forgotten the name.
-/
namespace TraceJournal

variable {σ η ξ : Type} [Storage σ η]

namespace Writer

/-- A writer that holds a full file, or has no name. It never gets as far as opening a file, which
would make it empty again. -/
def Capped (w : Writer σ η) : Prop := w.fileName = none ∨ w.full = true ∧ w.file ≠ none

variable {w after : Writer σ η} {path : String} {bytes : List UInt8} {file : η}
  {result : Except LogError Disposition} {requests : List Request}

theorem Appends.of_full (ha : w.Appends path bytes file result requests after)
    (hfull : w.full = true) : after = w ∧ requests = [] ∧ result = .ok .capReached := by
  cases ha with
  | capped =>
    refine ⟨?_, rfl, rfl⟩
    rw [← hfull]
  | written hopen | failed hopen => simp [hfull] at hopen

theorem Writes.of_capped (hw : w.Writes bytes result requests after) (h : w.Capped) :
    after = w ∧ requests = [] ∧ ∃ d, result = .ok d ∧ d.isWritten = false := by
  cases hw with
  | disabled | unconfigured | unavailable => exact ⟨rfl, rfl, _, rfl, rfl⟩
  | openFailed he hn hq hf | opened he hn hq hf => simp [Capped, hn, hf] at h
  | held he hn hq hf ha =>
    have hfull : w.full = true := by simpa [Capped, hn, hf] using h
    obtain ⟨rfl, rfl, rfl⟩ := ha.of_full hfull
    exact ⟨rfl, rfl, _, rfl, rfl⟩

theorem Appends.full_of_capReached
    (ha : w.Appends path bytes file (.ok .capReached) requests after) : after.full = true := by
  cases ha
  rfl

/-- A record that is told that the budget has been met leaves a full file open. -/
theorem Writes.full_of_capReached (hw : w.Writes bytes (.ok .capReached) requests after) :
    after.full = true ∧ ∃ file, after.file = some file := by
  cases hw with
  | opened he hn hq hf hc ha => exact ⟨ha.full_of_capReached, _, ha.file_eq⟩
  | held he hn hq hf ha => exact ⟨ha.full_of_capReached, _, ha.file_eq.trans hf⟩

end Writer

/-- A call that created nothing, appended nothing, and was not answered as if it had tried to. -/
structure Event.Ineffective (e : Event) : Prop where
  quiet : e.Quiet
  not_written : e.written? = none
  not_failed : e.failed = false

namespace Event.Ineffective

variable {e : Event}

theorem of_untraced (hq : e.Quiet) (ha : ∀ result, e.answer ≠ .traced result) :
    e.Ineffective := by
  rcases e with ⟨call, enabled, mode, answer, requests⟩
  cases answer with
  | traced result => exact (ha result rfl).elim
  | settled | replied => exact ⟨hq, by cases call <;> rfl, rfl⟩

theorem of_dropped {d : Disposition} (hq : e.Quiet) (ha : e.answer = .traced (.ok d))
    (hd : d.isWritten = false) : e.Ineffective := by
  rcases e with ⟨call, enabled, mode, answer, requests⟩
  cases ha
  cases d with
  | written => cases hd
  | disabled | unconfigured | unavailable | capReached => exact ⟨hq, by cases call <;> rfl, rfl⟩

end Event.Ineffective

namespace Logger

variable [Exporter ξ σ]

namespace Performs

variable {l l' : Logger σ η ξ} {e : Event} {content : η → σ → List UInt8}

/-- A capped log stays so until a file is chosen. Nothing is written meanwhile, and nothing counted. -/
theorem of_capped (hp : l.Performs e l') (hc : e.configured? = none) (h : l.writer.Capped) :
    l'.writer.Capped ∧ e.Ineffective ∧ l'.writer.byteCount = l.writer.byteCount := by
  cases hp with
  | @chosen call _ _ result _ hchoice hw =>
    have hi : (l.eventOf call (.settled result) []).Ineffective :=
      .of_untraced (by simp [Event.Quiet]) (by simp)
    cases hw with
    | alreadyOpen => exact ⟨h, hi, rfl⟩
    | refused => exact ⟨.inl rfl, hi, rfl⟩
    | accepted => simp [Event.configured?, hchoice] at hc
  | closed hw =>
    cases hw with
    | idle => exact ⟨h, .of_untraced (by simp [Event.Quiet]) (by simp), rfl⟩
    | released => exact ⟨.inl rfl, .of_untraced (by simp [Event.Quiet]) (by simp), rfl⟩
  | switched | undelivered | delivered =>
    exact ⟨h, .of_untraced (by simp [Event.Quiet]) (by simp), rfl⟩
  | gated => exact ⟨h, .of_dropped (by simp [Event.Quiet]) rfl rfl, rfl⟩
  | refused => exact ⟨h, ⟨by simp [Event.Quiet], rfl, rfl⟩, rfl⟩
  | offered he hr hw =>
    obtain ⟨rfl, rfl, d, rfl, hd⟩ := hw.of_capped h
    exact ⟨h, .of_dropped (by simp [Event.Quiet]) rfl hd, rfl⟩

/-- Of all that a capped log does, only a flush and an exporter reach the medium. -/
theorem content_of_capped (hf : FlushSparing content) (hx : Sparing ξ content)
    (hp : l.Performs e l') (h : l.writer.Capped) (file : η) :
    content file l'.writer.medium = content file l.writer.medium := by
  cases hp with
  | chosen hchoice hw => cases hw <;> rfl
  | closed hw =>
    cases hw with
    | idle => rfl
    | @released flushed _ _ _ hm =>
      have hspared := hf flushed file l.writer.medium
      rwa [hm] at hspared
  | switched | undelivered | gated | refused => rfl
  | @delivered exporter _ _ _ _ hd =>
    have hspared := hx l.exportRequest exporter l.writer.medium file
    rwa [hd] at hspared
  | offered he hr hw => rw [(hw.of_capped h).1]

theorem capped_of_capReached (hp : l.Performs e l') (ha : e.answer = .traced (.ok .capReached)) :
    l'.writer.Capped ∧ ∃ file, l'.writer.file = some file := by
  cases hp with
  | chosen | closed | switched | undelivered | delivered | gated | refused => cases ha
  | offered he hr hw =>
    cases ha
    obtain ⟨hfull, file, hfile⟩ := hw.full_of_capReached
    exact ⟨.inr ⟨hfull, by simp [hfile]⟩, file, hfile⟩

end Performs

variable {l : Logger σ η ξ} {calls : List Call}

theorem capped_after (h : l.writer.Capped) (hc : ∀ e ∈ l.events calls, e.configured? = none) :
    (∀ e ∈ l.events calls, e.Ineffective) ∧
      (l.after calls).writer.byteCount = l.writer.byteCount := by
  have hrun := events_induction (Q := Event.Ineffective) (P := fun now : Logger σ η ξ =>
    now.writer.Capped ∧ now.writer.byteCount = l.writer.byteCount) ?_ ⟨h, rfl⟩ hc
  · exact ⟨hrun.1, hrun.2.2⟩
  · intro now e next hnow hp hc
    obtain ⟨hcapped, hi, hcount⟩ := hp.of_capped hc hnow.1
    exact ⟨hi, hcapped, hcount.trans hnow.2⟩

theorem content_after_of_capped {content : η → σ → List UInt8} (hf : FlushSparing content)
    (hx : Sparing ξ content) (h : l.writer.Capped)
    (hc : ∀ e ∈ l.events calls, e.configured? = none) (file : η) :
    content file (l.after calls).writer.medium = content file l.writer.medium := by
  refine (events_induction (Q := fun _ => True) (P := fun now : Logger σ η ξ =>
    now.writer.Capped ∧ content file now.writer.medium = content file l.writer.medium)
    ?_ ⟨h, rfl⟩ hc).2.2
  intro now e next hnow hp hc
  exact ⟨trivial, (hp.of_capped hc hnow.1).1,
    (hp.content_of_capped hf hx hnow.1 file).trans hnow.2⟩

/-- The counter of a log never goes down, except that an accepted choice sets it to zero. Once a
record has been told that the budget has been met, no later one is written or fails to be, and neither
the counter nor the full file changes, until a choice is accepted. -/
theorem cap_until_next_choice (h : l.Reachable) :
    (∀ call, ((l.event call).configured? = none →
        l.writer.byteCount ≤ (l.perform call).2.writer.byteCount) ∧
      ∀ path, (l.event call).configured? = some path →
        (l.perform call).2.writer.byteCount = 0) ∧
    ∀ r, (l.event (.log r)).answer = .traced (.ok .capReached) →
      let capped := (l.perform (.log r)).2
      ∃ file, capped.writer.file = some file ∧
        ∀ later, (∀ e ∈ capped.events later, e.configured? = none) →
          (∀ e ∈ capped.events later, e.Ineffective) ∧
          (capped.after later).writer.byteCount = capped.writer.byteCount ∧
          ∀ content : η → σ → List UInt8, FlushSparing content → Sparing ξ content →
            content file (capped.after later).writer.medium =
              content file capped.writer.medium := by
  refine ⟨fun call => ?_, fun r ha => ?_⟩
  · have hp := l.perform_spec call
    refine ⟨fun hc => ?_, fun path hc => hp.byteCount_of_configured hc⟩
    rw [UInt32.le_iff_toNat_le, hp.byteCount_eq h.countsFromZero hc]
    exact Nat.le_add_right _ _
  · obtain ⟨hcapped, file, hfile⟩ := (l.perform_spec (.log r)).capped_of_capReached ha
    refine ⟨file, hfile, fun later hc => ?_⟩
    obtain ⟨hquiet, hcount⟩ := capped_after hcapped hc
    exact ⟨hquiet, hcount, fun content hf hx => content_after_of_capped hf hx hcapped hc file⟩

/-- A log whose budget of twenty bytes has room for one short record, and has written one. -/
def tightLog : Logger Memory String (List ExportRequest) :=
  ((new Memory.empty).setExporter (some [])).after [.setLogFile "trace.bin" 20, .log default]

set_option maxRecDepth 8000 in
/-- The next record meets the budget. The file cannot be exchanged then, and closing it does not make
room. -/
theorem cap_of_tightLog :
    let later : List Call := [.setLogFile "other.bin" 100, .dumpTrace, .closeFile, .log default]
    let capped := (tightLog.perform (.log default)).2
    (tightLog.event (.log default)).answer = .traced (.ok .capReached) ∧
      (∀ e ∈ capped.events later, e.configured? = none) ∧
      (∀ e ∈ capped.events later, e.Ineffective) ∧
      (capped.after later).writer.byteCount = capped.writer.byteCount ∧
      ∃ file, capped.writer.file = some file ∧
        (capped.after later).writer.medium.content file = capped.writer.medium.content file := by
  intro later capped
  have hreach : tightLog.Reachable := ((Reachable.new Memory.empty).setExporter (some [])).after _
  have ha : (tightLog.event (.log default)).answer = .traced (.ok .capReached) := by
    simp only [tightLog, after_cons, after_nil]
    cbv
  have hopen : capped.writer.file = some "trace.bin" ∧
      capped.writer.fileName = some "trace.bin" := by
    simp only [capped, tightLog, after_cons, after_nil]
    constructor <;> cbv
  have hrefused : (capped.perform (.setLogFile "other.bin" 100)).1 =
      .settled (.error (.alreadyOpen "trace.bin")) := by
    simp [perform, setLogFile, Writer.setLogFile, hopen]
  have hc : ∀ e ∈ capped.events later, e.configured? = none := by
    simp [later, events, event, eventOf, Event.configured?, Call.choice?, hrefused]
  obtain ⟨file, hfile, hlater⟩ := (cap_until_next_choice hreach).2 default ha
  obtain ⟨hquiet, hcount, hcontent⟩ := hlater later hc
  exact ⟨ha, hc, hquiet, hcount, file, hfile,
    hcontent _ Memory.flushSparing (sparing_notes _)⟩

end Logger

end TraceJournal
