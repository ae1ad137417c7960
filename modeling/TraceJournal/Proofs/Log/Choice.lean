import TraceJournal.Config
import TraceJournal.Proofs.Log.Stages
import TraceJournal.Proofs.Text.Digits
import TraceJournal.Storage.Memory
import Mathlib

/-!
# Choosing a file

A choice of a file and a budget asks nothing of the medium. While a file is open it is refused and
changes nothing; a name that cannot be used takes the name away; any other name is accepted and makes
a fresh start. Which of these it is depends on the open file first, and on the bytes of the name then.
-/
namespace TraceJournal

variable {σ η ξ : Type}

namespace Writer

section

variable {w : Writer σ η}

theorem mode_eq_opened_iff : w.mode = .opened ↔ ∃ file, w.file = some file := by
  unfold mode
  cases w.file <;> simp

theorem mode_eq_closed_iff : w.mode = .closed ↔ w.file = none := by
  unfold mode
  cases w.file <;> simp

/-- A writer that neither holds a file nor has a name for one. -/
structure Vacant (w : Writer σ η) : Prop where
  file : w.file = none
  fileName : w.fileName = none

end

/-- A writer that holds the file which the medium has created under this path. -/
def HoldsFile [Storage σ η] (path : String) (w : Writer σ η) : Prop :=
  ∃ (file : η) (before after : σ), w.file = some file ∧ w.fileName = some path ∧
    Storage.create path before = (.ok file, after)

/-- The file that is held is one that the medium has given for the name. -/
def FromMedium [Storage σ η] (w : Writer σ η) : Prop :=
  ∀ file path, w.file = some file → w.fileName = some path →
    ∃ before after : σ, Storage.create path before = (.ok file, after)

variable [Storage σ η] {w after : Writer σ η} {name path : String} {maxSize : UInt32}
  {bytes : List UInt8} {file : η}

namespace FromMedium

theorem of_file_eq_none (hf : w.file = none) : w.FromMedium := by
  intro file path hfile
  simp [hf] at hfile

theorem configures {result : Except LogError Unit} (h : w.FromMedium) (hc : w.Consistent)
    (hw : w.Configures name maxSize result after) : after.FromMedium := by
  cases hw with
  | alreadyOpen => exact h
  | refused hidle | accepted hidle => exact of_file_eq_none (hc.file_eq_none hidle)

theorem writes {result : Except LogError Disposition} {requests : List Request}
    (h : w.FromMedium) (hw : w.Writes bytes result requests after) : after.FromMedium := by
  cases hw with
  | disabled | unconfigured | unavailable => exact h
  | openFailed he hn hq hf => exact of_file_eq_none hf
  | opened he hn hq hf hc ha =>
    intro held path hheld hname
    obtain rfl : _ = held := Option.some.inj (ha.file_eq.symm.trans hheld)
    obtain rfl : _ = path := Option.some.inj (hn.symm.trans (ha.fileName_eq.symm.trans hname))
    exact ⟨_, _, hc⟩
  | held he hn hq hf ha =>
    intro held path hheld hname
    exact h held path (ha.file_eq.symm.trans hheld) (ha.fileName_eq.symm.trans hname)

theorem closes {result : Except LogError Unit} {requests : List Request} (h : w.FromMedium)
    (hw : w.Closes result requests after) : after.FromMedium := by
  cases hw with
  | idle => exact h
  | released => exact of_file_eq_none rfl

end FromMedium

end Writer

theorem Config.apply_eq (settings : Config) (l : Logger σ η ξ) : settings.apply l =
    match settings.fileName with
    | none => (.ok (), l.setEnabled settings.enabled)
    | some name => (l.setEnabled settings.enabled).setLogFile name settings.maxSize := by
  unfold Config.apply
  cases settings.fileName <;> rfl

namespace Logger

section

variable [Storage σ η] [Exporter ξ σ] {l l' : Logger σ η ξ} {e : Event}

theorem Performs.fromMedium (hp : l.Performs e l') (hc : l.writer.Consistent)
    (h : l.writer.FromMedium) : l'.writer.FromMedium := by
  cases hp with
  | chosen hchoice hw => exact h.configures hc hw
  | closed hw => exact h.closes hw
  | switched | undelivered | delivered | gated | refused => exact h
  | offered he hr hw => exact h.writes hw

theorem Reachable.fromMedium (h : l.Reachable) : l.writer.FromMedium := by
  induction h with
  | new medium => exact .of_file_eq_none rfl
  | @perform l hl call ih => exact (l.perform_spec call).fromMedium hl.consistent ih
  | setExporter _ _ ih | setMedium _ _ ih => exact ih
  | @write l _ bytes hb ih =>
    obtain ⟨requests, hw, -⟩ := Writer.write_spec hb l.writer
    exact ih.writes hw

/-- A choice asks nothing of the medium, whether it is accepted or not. -/
theorem Performs.requests_of_choice? (hp : l.Performs e l') {choice : String × UInt32}
    (hc : e.call.choice? = some choice) : e.requests = [] := by
  cases hp with
  | chosen => rfl
  | closed | switched | undelivered | delivered | gated | refused | offered => cases hc

/-- A log without a file stays so until a file is chosen. It asks nothing of the medium, and says of
each record that it has no file for it. -/
theorem Performs.of_vacant (hp : l.Performs e l') (h : l.writer.Vacant)
    (hc : e.configured? = none) :
    (e.requests = [] ∧ ∀ r, e.offered? = some r → e.answer = .traced (.ok .unconfigured)) ∧
      l'.writer.Vacant := by
  have hanswer := (hp.of_unready (.inl h.fileName)).2.2
  rw [if_pos h.fileName] at hanswer
  have hkept : e.requests = [] ∧ l'.writer.Vacant := by
    cases hp with
    | chosen hchoice hw =>
      cases hw with
      | alreadyOpen hf => simp [h.file] at hf
      | refused => exact ⟨rfl, h.file, rfl⟩
      | accepted => simp [Event.configured?, hchoice] at hc
    | closed hw =>
      cases hw with
      | idle => exact ⟨rfl, h⟩
      | released hf => simp [h.file] at hf
    | switched | undelivered | delivered | gated | refused => exact ⟨rfl, h.file, h.fileName⟩
    | offered he hr hw =>
      cases hw with
      | unconfigured => exact ⟨rfl, h⟩
      | disabled hshut => simp [he] at hshut
      | unavailable _ hn | openFailed _ hn | opened _ hn | held _ hn => simp [h.fileName] at hn
  exact ⟨⟨hkept.1, hanswer⟩, hkept.2⟩

theorem Reachable.holdsFile (h : l.Reachable) (ho : l.writer.mode = .opened) :
    ∃ path, l.writer.HoldsFile path := by
  obtain ⟨file, hf⟩ := Writer.mode_eq_opened_iff.1 ho
  have hnamed : l.writer.fileName ≠ none := h.consistent.named (by simp [hf])
  obtain ⟨path, hn⟩ := Option.ne_none_iff_exists'.1 hnamed
  obtain ⟨before, after, hcreate⟩ := h.fromMedium file path hf hn
  exact ⟨path, file, before, after, hf, hn, hcreate⟩

omit [Exporter ξ σ] in
/-- While a file is open a choice is refused, under the name of that file, and changes nothing. -/
theorem setLogFile_of_holdsFile {path : String} (h : l.writer.HoldsFile path) (name : String)
    (maxSize : UInt32) : l.setLogFile name maxSize = (.error (.alreadyOpen path), l) := by
  obtain ⟨file, before, after, hf, hn, -⟩ := h
  simp [setLogFile, Writer.setLogFile, hf, hn]

/-- A log that says of each record that it has no file for it, and asks nothing of the medium, as long
as no choice is accepted. -/
def Unconfigured (l : Logger σ η ξ) : Prop :=
  ∀ calls, (∀ e ∈ l.events calls, e.configured? = none) →
    ∀ e ∈ l.events calls, e.requests = [] ∧
      ∀ r, e.offered? = some r → e.answer = .traced (.ok .unconfigured)

theorem unconfigured_of_vacant (h : l.writer.Vacant) : l.Unconfigured := fun _ hc =>
  (events_induction (P := fun l => l.writer.Vacant) (R := fun e => e.configured? = none)
    (fun hl hp hc => hp.of_vacant hl hc) h hc).1

end

section

variable {l : Logger σ η ξ} {name : String}

/-- Without an open file, a name that can be used makes a fresh start. -/
theorem setLogFile_of_usable (hclosed : l.writer.mode = .closed)
    (h : 1 ≤ name.utf8ByteSize ∧ name.utf8ByteSize ≤ maxNameLength) (maxSize : UInt32) :
    l.setLogFile name maxSize = (.ok (), { l with
      writer := { l.writer with
        fileName := some name, maxSize, byteCount := 0, full := false, fault := none } }) := by
  have hf := Writer.mode_eq_closed_iff.1 hclosed
  have hsome : name.utf8ByteSize ≠ 0 := by omega
  simp [setLogFile, Writer.setLogFile, hf, hsome, Nat.not_lt.2 h.2]

theorem setLogFile_of_unusable (hclosed : l.writer.mode = .closed)
    (h : ¬ (1 ≤ name.utf8ByteSize ∧ name.utf8ByteSize ≤ maxNameLength)) (maxSize : UInt32) :
    l.setLogFile name maxSize =
      (.error (if name.utf8ByteSize = 0 then .missingName else .nameTooLong name.utf8ByteSize),
        { l with writer := { l.writer with fileName := none } }) := by
  have hf := Writer.mode_eq_closed_iff.1 hclosed
  by_cases h0 : name.utf8ByteSize = 0
  · simp [setLogFile, Writer.setLogFile, hf, h0]
  · have hlong : maxNameLength < name.utf8ByteSize := by omega
    simp [setLogFile, Writer.setLogFile, hf, h0, hlong]

end

variable [Storage σ η] [Exporter ξ σ] {l : Logger σ η ξ}

/-- Whatever has been done with a log, and whatever its medium has answered: a choice of a file asks
nothing of the medium. It is refused as coming too early if and only if a file is open, under the path
that this file was created under, and nothing has changed then. It is accepted if and only if no file
is open and the name has at least one byte and no more than the largest number of bytes; the log then
makes a fresh start, behind the gate that it had. Otherwise the answer says what is wrong with the
name, the old name is all that is lost, and until the next accepted choice no record finds a file or
reaches the medium. Settings set the gate, and are such a choice if they name a file. -/
theorem setLogFile_of_reachable (h : l.Reachable) (name : String) (maxSize : UInt32) :
    let result := (l.setLogFile name maxSize).1
    let l' := (l.setLogFile name maxSize).2
    let size := name.utf8ByteSize
    l.requests (.setLogFile name maxSize) = [] ∧
    ((∃ path, result = .error (.alreadyOpen path)) ↔ l.writer.mode = .opened) ∧
    (∀ path, result = .error (.alreadyOpen path) → l.writer.HoldsFile path ∧ l' = l) ∧
    (result = .ok () ↔ l.writer.mode = .closed ∧ 1 ≤ size ∧ size ≤ maxNameLength) ∧
    (result = .ok () → l'.writer.mode = .closed ∧ l' = { l with
      writer := { l.writer with
        fileName := some name, maxSize, byteCount := 0, full := false, fault := none } }) ∧
    (l.writer.mode = .closed → result ≠ .ok () →
      result = .error (if size = 0 then .missingName else .nameTooLong size) ∧
      l' = { l with writer := { l.writer with fileName := none } } ∧ l'.Unconfigured) ∧
    ∀ settings : Config, settings.apply l =
      match settings.fileName with
      | none => (.ok (), l.setEnabled settings.enabled)
      | some chosen => (l.setEnabled settings.enabled).setLogFile chosen settings.maxSize := by
  dsimp only
  have hrequests : l.requests (.setLogFile name maxSize) = [] :=
    (l.perform_spec (.setLogFile name maxSize)).requests_of_choice? rfl
  cases hm : l.writer.mode with
  | opened =>
    obtain ⟨path, hheld⟩ := h.holdsFile hm
    rw [setLogFile_of_holdsFile hheld]
    refine ⟨hrequests, by simp, ?_, by simp, by simp, by simp, fun settings => settings.apply_eq l⟩
    rintro other ⟨⟩
    exact ⟨hheld, rfl⟩
  | closed =>
    have hf := Writer.mode_eq_closed_iff.1 hm
    by_cases husable : 1 ≤ name.utf8ByteSize ∧ name.utf8ByteSize ≤ maxNameLength
    · rw [setLogFile_of_usable hm husable]
      refine ⟨hrequests, by simp, by simp, by simp [husable], ?_, by simp, fun settings => settings.apply_eq l⟩
      exact fun _ => ⟨Writer.mode_eq_closed_iff.2 hf, rfl⟩
    · rw [setLogFile_of_unusable hm husable]
      have hvacant : Writer.Vacant { l.writer with fileName := none } := ⟨hf, rfl⟩
      refine ⟨hrequests, ?_, ?_, by simp [husable], by simp, ?_, fun settings => settings.apply_eq l⟩
      · split <;> simp
      · split <;> simp
      · exact fun _ _ => ⟨rfl, rfl, unconfigured_of_vacant hvacant⟩

set_option maxRecDepth 8000 in
/-- A log with an open file, and a log without one that is given a name of 128 characters, which are
256 bytes. -/
theorem setLogFile_of_openLog :
    let opened : Logger Memory String (List ExportRequest) :=
      (new Memory.empty).after [.setLogFile "trace.bin" 20, .log default]
    let closed : Logger Memory String (List ExportRequest) :=
      (new Memory.empty).after [.setLogFile "trace.bin" 20]
    let name := String.ofList (List.replicate 128 'é')
    opened.setLogFile "" 0 = (.error (.alreadyOpen "trace.bin"), opened) ∧
      (closed.setLogFile name 0).1 = .error (.nameTooLong 256) ∧
      (closed.setLogFile name 0).2.Unconfigured := by
  intro opened closed name
  have hopened : opened.Reachable := (Reachable.new Memory.empty).after _
  have hclosed : closed.Reachable := (Reachable.new Memory.empty).after _
  have hopen : opened.writer.mode = .opened ∧ opened.writer.fileName = some "trace.bin" := by
    simp only [opened, after_cons, after_nil]
    constructor <;> cbv
  have hsize : name.utf8ByteSize = 256 := Text.utf8ByteSize_ofList_replicate 'é' 128
  obtain ⟨-, htooEarly, hheld, -⟩ := setLogFile_of_reachable hopened "" 0
  obtain ⟨-, -, -, haccepted, -, hrefused, -⟩ := setLogFile_of_reachable hclosed name 0
  refine ⟨?_, ?_⟩
  · obtain ⟨path, hpath⟩ := htooEarly.2 hopen.1
    obtain ⟨⟨file, before, after, -, hn, -⟩, hsame⟩ := hheld path hpath
    obtain rfl : path = "trace.bin" := Option.some.inj (hn.symm.trans hopen.2)
    exact Prod.ext hpath hsame
  · have hlong : ¬ (closed.setLogFile name 0).1 = .ok () := by
      rw [haccepted, hsize]
      decide
    obtain ⟨herror, -, hunconfigured⟩ := hrefused rfl hlong
    rw [hsize] at herror
    exact ⟨herror, hunconfigured⟩

end Logger

end TraceJournal
