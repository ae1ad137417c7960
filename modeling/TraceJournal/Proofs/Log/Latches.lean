import TraceJournal.Proofs.Log.Calls

/-!
# What a call leaves behind

The file name, the fault and the attempt to open the file, by the event that took place. Between
two accepted choices of a file the name can only be forgotten, the fault can only be set, and the
file is created only by a record that finds neither a fault nor an open file.
-/
namespace TraceJournal

variable {σ η ξ : Type} [Storage σ η]

namespace Writer

/-- A writer that will not create a file before it is configured again. -/
def Spent (w : Writer σ η) : Prop := w.fileName = none ∨ w.fault ≠ none ∨ w.file ≠ none

/-- A writer that has a name for the file that it holds. -/
def Named (w : Writer σ η) : Prop := w.file ≠ none → w.fileName ≠ none

variable {w after : Writer σ η} {path : String} {bytes : List UInt8} {file : η}
  {result : Except LogError Disposition} {requests : List Request}

theorem Appends.fileName_eq (ha : w.Appends path bytes file result requests after) :
    after.fileName = w.fileName := by
  cases ha <;> rfl

theorem Appends.file_eq (ha : w.Appends path bytes file result requests after) :
    after.file = w.file := by
  cases ha <;> rfl

theorem Writes.fileName_eq (hw : w.Writes bytes result requests after) :
    after.fileName = w.fileName := by
  cases hw with
  | disabled | unconfigured | unavailable | openFailed => rfl
  | opened he hn hq hf hc ha => exact ha.fileName_eq
  | held he hn hq hf ha => exact ha.fileName_eq

theorem Appends.enabled_eq (ha : w.Appends path bytes file result requests after) :
    after.enabled = w.enabled := by
  cases ha <;> rfl

theorem Writes.enabled_eq (hw : w.Writes bytes result requests after) :
    after.enabled = w.enabled := by
  cases hw with
  | disabled | unconfigured | unavailable | openFailed => rfl
  | opened he hn hq hf hc ha => exact ha.enabled_eq
  | held he hn hq hf ha => exact ha.enabled_eq

theorem Appends.created_eq (ha : w.Appends path bytes file result requests after) :
    requests.filterMap Request.path? = [] := by
  cases ha <;> rfl

/-- Only a writer that is not spent creates a file, and only the one that it has been given. -/
theorem Writes.created_eq (hw : w.Writes bytes result requests after)
    (hc : requests.filterMap Request.path? ≠ []) :
    ∃ path, w.fileName = some path ∧ requests.filterMap Request.path? = [path] ∧ ¬ w.Spent := by
  cases hw with
  | disabled | unconfigured | unavailable => simp at hc
  | openFailed he hn hq hf => exact ⟨_, hn, rfl, by simp [Spent, hn, hq, hf]⟩
  | opened he hn hq hf _ ha =>
    exact ⟨_, hn, by simp [Request.path?, ha.created_eq], by simp [Spent, hn, hq, hf]⟩
  | held he hn hq hf ha => exact (hc ha.created_eq).elim

/-- A record that finds the gate open leaves the file open, or a reason not to open it. -/
theorem Writes.spent (hw : w.Writes bytes result requests after) (he : w.enabled = true) :
    after.Spent := by
  cases hw with
  | disabled he' => simp [he] at he'
  | unconfigured he hn => exact .inl hn
  | unavailable he hn hq => exact .inr (.inl (by simp [hq]))
  | openFailed => exact .inr (.inl (by simp))
  | opened he hn hq hf hc ha => exact .inr (.inr (by simp [ha.file_eq]))
  | held he hn hq hf ha => exact .inr (.inr (by simp [ha.file_eq, hf]))

theorem Appends.fault_eq (ha : w.Appends path bytes file result requests after) :
    after.fault.isSome = (w.fault.isSome || (Answer.traced result).failed) := by
  cases ha <;> simp [Answer.failed]

theorem Writes.fault_eq (hw : w.Writes bytes result requests after) :
    after.fault.isSome = (w.fault.isSome || (Answer.traced result).failed) := by
  cases hw with
  | disabled | unconfigured | unavailable | openFailed => simp [Answer.failed]
  | opened he hn hq hf hc ha => exact ha.fault_eq
  | held he hn hq hf ha => exact ha.fault_eq

theorem Writes.of_unready (hw : w.Writes bytes result requests after) (he : w.enabled = true)
    (h : w.fileName = none ∨ w.fault ≠ none) :
    result = .ok (if w.fileName = none then .unconfigured else .unavailable) ∧
      requests = [] := by
  cases hw with
  | disabled he' => simp [he] at he'
  | unconfigured he' hn => simp [hn]
  | unavailable he' hn hq => simp [hn]
  | openFailed he' hn hq => simp [hn, hq] at h
  | opened he' hn hq => simp [hn, hq] at h
  | held he' hn hq => simp [hn, hq] at h

theorem Writes.named (hw : w.Writes bytes result requests after) (hn : w.Named) : after.Named := by
  intro hf
  rw [hw.fileName_eq]
  cases hw with
  | disabled | unconfigured | unavailable | openFailed => exact hn hf
  | opened he hname | held he hname => simp [hname]

theorem Writes.fileName_eq_none
    (hw : w.Writes bytes (.ok .unconfigured) requests after) : w.fileName = none := by
  cases hw with
  | unconfigured he hn => exact hn
  | opened he hn hq hf hc ha => cases ha
  | held he hn hq hf ha => cases ha

end Writer

theorem Answer.rejected_of_nameFault? {name : String} {e : LogError}
    (he : Writer.nameFault? name = some e) : (Answer.settled (.error e)).rejected = true := by
  unfold Writer.nameFault? at he
  split at he
  · cases he
    rfl
  · split at he
    · cases he
      rfl
    · cases he

theorem Call.ne_closeFile_of_choice? {call : Call} {choice : String × UInt32}
    (hc : call.choice? = some choice) : call ≠ .closeFile := by
  rintro rfl
  cases hc

theorem Event.offered?_of_choice? {e : Event} {choice : String × UInt32}
    (hc : e.call.choice? = some choice) : e.offered? = none := by
  rcases e with ⟨call, enabled, mode, answer, requests⟩
  cases call with
  | log r => cases hc
  | setLogFile | configure | closeFile | enableTrace | dumpTrace => rfl

namespace Logger.Performs

variable [Exporter ξ σ] {l l' : Logger σ η ξ} {e : Event}

/-- A log never holds a file that it has no name for. -/
theorem named (hp : l.Performs e l') (hn : l.writer.Named) : l'.writer.Named := by
  cases hp with
  | chosen hchoice hw =>
    cases hw with
    | alreadyOpen => exact hn
    | refused hw he =>
      intro hf
      exact (hw.elim hf (hn hf)).elim
    | accepted => simp [Writer.Named]
  | closed hw =>
    cases hw with
    | idle => exact hn
    | released => simp [Writer.Named]
  | switched | undelivered | delivered | gated | refused => exact hn
  | offered he hr hw => exact hw.named hn

/-- The name is the one chosen last, until it is forgotten. -/
theorem fileName_eq (hp : l.Performs e l') (hc : e.configured? = none) :
    l'.writer.fileName = if e.forgets then none else l.writer.fileName := by
  cases hp with
  | chosen hchoice hw =>
    have hne := Call.ne_closeFile_of_choice? hchoice
    cases hw with
    | alreadyOpen hf hn => simp [Event.forgets, hne, Answer.rejected]
    | refused hw he => simp [Event.forgets, Answer.rejected_of_nameFault? he]
    | accepted hw he => simp [Event.configured?, hchoice] at hc
  | closed hw =>
    cases hw with
    | idle hf => simp [Event.forgets, Writer.mode, hf, Answer.rejected]
    | released hf hm => simp [Event.forgets, Writer.mode, hf]
  | switched enable => simp [Event.forgets, Answer.rejected, setEnabled, Writer.setEnabled]
  | undelivered | delivered | gated | refused => simp [Event.forgets, Answer.rejected]
  | offered he hr hw => simp [Event.forgets, Answer.rejected, hw.fileName_eq]

theorem fileName_of_configured (hp : l.Performs e l') {path : String}
    (hc : e.configured? = some path) : l'.writer.fileName = some path := by
  cases hp with
  | chosen hchoice hw =>
    simp only [Event.configured?, eventOf_call, eventOf_answer, hchoice] at hc
    cases hw with
    | alreadyOpen | refused => cases hc
    | accepted hw he => exact hc
  | closed | switched | undelivered | delivered | gated | refused | offered => cases hc

theorem requests_of_configured (hp : l.Performs e l') {path : String}
    (hc : e.configured? = some path) : e.requests = [] := by
  cases hp with
  | chosen => rfl
  | closed | switched | undelivered | delivered | gated | refused | offered => cases hc

/-- The fault is set by a failure, and stays until a file is chosen. -/
theorem fault_eq (hp : l.Performs e l') (hc : e.configured? = none) :
    l'.writer.fault.isSome = (l.writer.fault.isSome || e.failed) := by
  cases hp with
  | chosen hchoice hw =>
    cases hw with
    | alreadyOpen hf hn => simp [Event.failed, Answer.failed]
    | refused hw he => simp [Event.failed, Answer.failed]
    | accepted hw he => simp [Event.configured?, hchoice] at hc
  | closed hw => cases hw <;> simp [Event.failed, Answer.failed]
  | switched enable => simp [Event.failed, Answer.failed, setEnabled, Writer.setEnabled]
  | undelivered | delivered | gated | refused => simp [Event.failed, Answer.failed]
  | offered he hr hw => exact hw.fault_eq

theorem fault_ne_none (hp : l.Performs e l') (hc : e.configured? = none)
    (hq : l.writer.fault ≠ none) : l'.writer.fault ≠ none := by
  have hf := hp.fault_eq hc
  rw [Option.isSome_iff_ne_none.2 hq, Bool.true_or] at hf
  exact Option.isSome_iff_ne_none.1 hf

/-- Without a name, or with a fault, no call creates a file or appends to one. -/
theorem of_unready (hp : l.Performs e l')
    (h : l.writer.fileName = none ∨ l.writer.fault ≠ none) :
    e.Quiet ∧ e.failed = false ∧ ∀ r, e.offered? = some r → e.answer =
      .traced (.ok (if l.writer.fileName = none then .unconfigured else .unavailable)) := by
  cases hp with
  | chosen hchoice hw =>
    refine ⟨by simp [Event.Quiet], rfl, fun r hr => ?_⟩
    rw [Event.offered?_of_choice? hchoice] at hr
    cases hr
  | closed hw =>
    cases hw <;> simp [Event.Quiet, Event.failed, Event.offered?, Answer.failed]
  | switched | undelivered | delivered | gated | refused =>
    simp [Event.Quiet, Event.failed, Event.offered?, Answer.failed, *]
  | offered he hr hw =>
    obtain ⟨rfl, rfl⟩ := hw.of_unready he h
    simp [Event.Quiet, Event.failed, Answer.failed]

theorem of_failed (hp : l.Performs e l') (hf : e.failed = true) :
    l'.writer.fileName ≠ none ∧ l'.writer.fault ≠ none := by
  have hready : ¬ (l.writer.fileName = none ∨ l.writer.fault ≠ none) := by
    intro h
    rw [(hp.of_unready h).2.1] at hf
    cases hf
  cases hp with
  | chosen | closed | switched | undelivered | delivered | gated | refused => cases hf
  | offered he hr hw =>
    have hq := hw.fault_eq
    rw [show (Answer.traced _).failed = true from hf, Bool.or_true] at hq
    refine ⟨?_, by simpa [Option.isSome_iff_ne_none] using hq⟩
    rw [hw.fileName_eq]
    exact fun hn => hready (.inl hn)

theorem spent (hp : l.Performs e l') (hc : e.configured? = none) (hs : l.writer.Spent) :
    l'.writer.Spent := by
  cases hp with
  | chosen hchoice hw =>
    cases hw with
    | alreadyOpen hf hn => exact hs
    | refused hw he => exact .inl rfl
    | accepted hw he => simp [Event.configured?, hchoice] at hc
  | closed hw =>
    cases hw with
    | idle hf => exact hs
    | released hf hm => exact .inl rfl
  | switched | undelivered | delivered | gated | refused => exact hs
  | offered he hr hw => exact hw.spent he

/-- A file is created only for a record that is offered to a log that is not spent, and that log
is spent afterwards. -/
theorem of_created (hp : l.Performs e l') (hne : e.created ≠ []) :
    (∃ path, l.writer.fileName = some path ∧ e.created = [path]) ∧ (∃ r, e.offered? = some r) ∧
      ¬ l.writer.Spent ∧ l'.writer.Spent := by
  cases hp with
  | chosen => simp [Event.created] at hne
  | closed hw => cases hw <;> simp [Event.created, Request.path?] at hne
  | switched | undelivered | delivered | gated | refused => simp [Event.created] at hne
  | offered he hr hw =>
    obtain ⟨path, hn, hc, hs⟩ := hw.created_eq hne
    exact ⟨⟨path, hn, hc⟩, ⟨_, by simp [Event.offered?, he, hr]; rfl⟩, hs, hw.spent he⟩

theorem fileName_eq_none (hp : l.Performs e l')
    (ha : e.answer = .traced (.ok .unconfigured)) : l.writer.fileName = none := by
  cases hp with
  | chosen | closed | switched | undelivered | delivered | gated | refused => cases ha
  | offered he hr hw =>
    cases ha
    exact hw.fileName_eq_none

end Logger.Performs

end TraceJournal
