import TraceJournal.Proofs.Log.Latches
import TraceJournal.Proofs.Storage.Laws
import Mathlib

/-!
# What an open file holds

The file of a log holds the records that were written since it was created, one after the other,
and behind them what a failed write left there. The writer never reads its file; that its counter
and its fault tell the truth about it is an invariant of the whole run.
-/
namespace TraceJournal

/-- The end of a run, from the last call that created a file on. -/
def SinceCreated (events since : List Event) : Prop :=
  ∃ earlier e later, events = earlier ++ since ∧ since = e :: later ∧ e.created ≠ [] ∧
    ∀ f ∈ later, f.created = []

theorem SinceCreated.snoc {events since : List Event} {e : Event} (h : SinceCreated events since)
    (he : e.created = []) : SinceCreated (events ++ [e]) (since ++ [e]) := by
  obtain ⟨earlier, first, later, rfl, rfl, hfirst, hlater⟩ := h
  refine ⟨earlier, first, later ++ [e], by simp, rfl, hfirst, ?_⟩
  rw [List.forall_mem_append]
  exact ⟨hlater, by simpa using he⟩

theorem SinceCreated.start {e : Event} (events : List Event) (he : e.created ≠ []) :
    SinceCreated (events ++ [e]) [e] :=
  ⟨events, e, [], rfl, rfl, he, by simp⟩

def writtenRecords (events : List Event) : List Record := events.filterMap Event.written?

def tornRecords (events : List Event) : List Record := events.filterMap Event.torn?

/-- What a file holds, by what took place since it was created: the records written, and behind them
`torn`, which is the beginning of a record whose write failed if the writer has a fault. -/
structure Stored {σ η : Type} (w : Writer σ η) (since : List Event)
    (held torn : List UInt8) : Prop where
  held_eq : held = (writtenRecords since).flatMap Record.wire ++ torn
  byteCount_eq : ((writtenRecords since).flatMap Record.wire).length = w.byteCount.toNat
  byteCount_le : w.byteCount ≤ w.maxSize
  length_le : held.length ≤ w.maxSize.toNat
  encodable : ∀ r ∈ writtenRecords since, r.Encodable
  intact : w.fault = none → torn = [] ∧ tornRecords since = []
  latched : w.fault ≠ none → w.fault = some .writeFailed ∧
    ∃ r, tornRecords since = [r] ∧ r.Encodable ∧ StrictPrefix torn r.wire

namespace Stored

variable {σ η : Type} {w after : Writer σ η} {since : List Event} {held torn : List UInt8}
  {e : Event}

theorem empty (hc : w.byteCount = 0) (hq : w.fault = none) : Stored w [] [] [] where
  held_eq := rfl
  byteCount_eq := by rw [hc]; rfl
  byteCount_le := by rw [hc]; exact UInt32.zero_le
  length_le := Nat.zero_le _
  encodable := by simp [writtenRecords]
  intact := fun _ => ⟨rfl, rfl⟩
  latched := fun h => (h hq).elim

theorem calm (h : Stored w since held torn) (hw : e.written? = none) (ht : e.torn? = none)
    (hc : after.byteCount = w.byteCount) (hm : after.maxSize = w.maxSize)
    (hq : after.fault = w.fault) : Stored after (since ++ [e]) held torn := by
  have hwritten : writtenRecords (since ++ [e]) = writtenRecords since := by
    simp [writtenRecords, hw]
  have htorn : tornRecords (since ++ [e]) = tornRecords since := by simp [tornRecords, ht]
  constructor
  · rw [hwritten]; exact h.held_eq
  · rw [hwritten, hc]; exact h.byteCount_eq
  · rw [hc, hm]; exact h.byteCount_le
  · rw [hm]; exact h.length_le
  · rw [hwritten]; exact h.encodable
  · rw [htorn, hq]; exact h.intact
  · rw [htorn, hq]; exact h.latched

/-- The reader gives the records that were written, and one failure at the end of them if a write
has left something behind. -/
theorem items_eq (h : Stored w since held torn) :
    (torn = [] → (RecordReader.start held).items.map (·.1) = (writtenRecords since).map .ok) ∧
    (torn ≠ [] → ∃ r, tornRecords since = [r] ∧ (RecordReader.start held).items.map (·.1) =
      (writtenRecords since).map .ok ++
        [.error (.truncated w.byteCount.toNat (r.needed torn.length) torn.length)]) := by
  have hitems := RecordReader.items_flatMap_wire h.encodable torn 0
  rw [← h.held_eq, Nat.zero_add, h.byteCount_eq] at hitems
  refine ⟨?_, ?_⟩
  · rintro rfl
    rw [RecordReader.start, hitems, RecordReader.items_nil]
    simp
  · intro hne
    have hq : w.fault ≠ none := fun hq => hne (h.intact hq).1
    obtain ⟨-, r, htorn, hr, hpart⟩ := h.latched hq
    refine ⟨r, htorn, ?_⟩
    rw [RecordReader.start, hitems, RecordReader.items_strictPrefix hr hpart hne]

variable {r : Record} {part : List UInt8}

theorem keep (h : Stored w since held []) (hw : e.written? = some r) (ht : e.torn? = none)
    (hr : r.Encodable) (hfit : w.byteCount.toNat + r.wire.length ≤ w.maxSize.toNat)
    (hc : after.byteCount.toNat = w.byteCount.toNat + r.wire.length)
    (hm : after.maxSize = w.maxSize) (hq : w.fault = none) (hq' : after.fault = none) :
    Stored after (since ++ [e]) (held ++ r.wire) [] := by
  have hwritten : writtenRecords (since ++ [e]) = writtenRecords since ++ [r] := by
    simp [writtenRecords, hw]
  have htorn : tornRecords (since ++ [e]) = tornRecords since := by simp [tornRecords, ht]
  have hwire : (writtenRecords (since ++ [e])).flatMap Record.wire = held ++ r.wire := by
    rw [hwritten, List.flatMap_append, h.held_eq, List.append_nil]
    simp
  have hheld : held.length = w.byteCount.toNat := by
    rw [h.held_eq, List.append_nil, h.byteCount_eq]
  constructor
  · rw [hwire, List.append_nil]
  · rw [hwire, List.length_append, hheld, hc]
  · rw [UInt32.le_iff_toNat_le, hc, hm]
    exact hfit
  · rw [List.length_append, hheld, hm]
    exact hfit
  · rw [hwritten, List.forall_mem_append]
    exact ⟨h.encodable, by simpa using hr⟩
  · rw [htorn]
    exact fun _ => ⟨rfl, (h.intact hq).2⟩
  · exact fun hne => (hne hq').elim

/-- A record whose write fails leaves a beginning of itself behind. -/
theorem tear (h : Stored w since held []) (hw : e.written? = none) (ht : e.torn? = some r)
    (hr : r.Encodable) (hpart : StrictPrefix part r.wire)
    (hfit : w.byteCount.toNat + r.wire.length ≤ w.maxSize.toNat)
    (hc : after.byteCount = w.byteCount) (hm : after.maxSize = w.maxSize) (hq : w.fault = none)
    (hq' : after.fault = some .writeFailed) :
    Stored after (since ++ [e]) (held ++ part) part := by
  have hwritten : writtenRecords (since ++ [e]) = writtenRecords since := by
    simp [writtenRecords, hw]
  have htorn : tornRecords (since ++ [e]) = [r] := by
    rw [tornRecords, List.filterMap_append, ← tornRecords, (h.intact hq).2]
    simp [ht]
  have hheld : held.length = w.byteCount.toNat := by
    rw [h.held_eq, List.append_nil, h.byteCount_eq]
  constructor
  · rw [hwritten, h.held_eq, List.append_nil]
  · rw [hwritten, hc]
    exact h.byteCount_eq
  · rw [hc, hm]
    exact h.byteCount_le
  · have hlt := hpart.length_lt
    rw [List.length_append, hheld, hm]
    omega
  · rw [hwritten]
    exact h.encodable
  · simp [hq']
  · exact fun _ => ⟨hq', r, htorn, hr, hpart⟩

variable [Storage σ η] {content : η → σ → List UInt8} {path : String} {file : η}
  {result : Except LogError Disposition} {requests : List Request}

/-- A record that reaches the file is dropped, or written, or torn off. -/
theorem append (hs : Appending content) (h : Stored w since (content file w.medium) torn)
    (hq : w.fault = none) (hr : r.Encodable)
    (ha : w.Appends path r.wire file result requests after)
    (hcall : e.call = .log r) (hanswer : e.answer = .traced result) :
    ∃ torn, Stored after (since ++ [e]) (content file after.medium) torn := by
  obtain ⟨rfl, -⟩ := h.intact hq
  cases ha with
  | capped hcap =>
    have hw : e.written? = none := by simp [Event.written?, hcall, hanswer]
    have ht : e.torn? = none := by simp [Event.torn?, hcall, hanswer]
    exact ⟨[], h.calm hw ht rfl rfl rfl⟩
  | written hfull hfit hwrite hcount =>
    have hw : e.written? = some r := by simp [Event.written?, hcall, hanswer]
    have ht : e.torn? = none := by simp [Event.torn?, hcall, hanswer]
    rw [hs.write_ok hwrite]
    exact ⟨[], h.keep hw ht hr hfit hcount rfl hq hq⟩
  | failed hfull hfit hwrite =>
    obtain ⟨part, hpart, hcontent⟩ := hs.write_error hwrite
    have hw : e.written? = none := by simp [Event.written?, hcall, hanswer]
    have ht : e.torn? = some r := by simp [Event.torn?, hcall, hanswer]
    rw [hcontent]
    exact ⟨part, h.tear hw ht hr hpart hfit rfl rfl hq rfl⟩

end Stored

namespace Logger

variable {σ η ξ : Type} {content : η → σ → List UInt8} {l l' : Logger σ η ξ}
  {past : List Event} {e : Event}

/-- A log knows what its file holds, by all that has taken place. -/
structure Accounts (content : η → σ → List UInt8) (l : Logger σ η ξ) (past : List Event) :
    Prop where
  named : l.writer.Named
  stored : ∀ file, l.writer.file = some file → ∃ since torn, SinceCreated past since ∧
    Stored l.writer since (content file l.writer.medium) torn

namespace Accounts

theorem of_closed (hf : l.writer.file = none) : l.Accounts content past where
  named := fun h => (h hf).elim
  stored := by simp [hf]

theorem calm (h : l.Accounts content past) (hcreated : e.created = [])
    (hw : e.written? = none) (ht : e.torn? = none) (hn : l'.writer.fileName = l.writer.fileName)
    (hf : l'.writer.file = l.writer.file)
    (hm : ∀ file, content file l'.writer.medium = content file l.writer.medium)
    (hc : l'.writer.byteCount = l.writer.byteCount) (hs : l'.writer.maxSize = l.writer.maxSize)
    (hq : l'.writer.fault = l.writer.fault) : l'.Accounts content (past ++ [e]) where
  named := by
    rw [Writer.Named, hf, hn]
    exact h.named
  stored := by
    intro file hfile
    rw [hf] at hfile
    obtain ⟨since, torn, hsince, hstored⟩ := h.stored file hfile
    refine ⟨since ++ [e], torn, hsince.snoc hcreated, ?_⟩
    rw [hm]
    exact hstored.calm hw ht hc hs hq

variable [Storage σ η] [Exporter ξ σ]

theorem step (ha : Appending content) (hx : Sparing ξ content) (h : l.Accounts content past)
    (hp : l.Performs e l') : l'.Accounts content (past ++ [e]) := by
  have hnamed := hp.named h.named
  cases hp with
  | @chosen call _ _ _ _ hchoice hw =>
    cases hw with
    | alreadyOpen =>
      exact h.calm rfl (by cases call <;> rfl) (by cases call <;> rfl) rfl rfl (fun _ => rfl) rfl
        rfl rfl
    | refused hfree | accepted hfree =>
      -- A file without a name is not held, so there is none.
      refine of_closed (hfree.elim id fun hn => ?_)
      by_cases hf : l.writer.file = none
      · exact hf
      · exact (h.named hf hn).elim
  | closed hw =>
    cases hw with
    | idle hf => exact of_closed hf
    | released => exact of_closed rfl
  | switched enable => exact h.calm rfl rfl rfl rfl rfl (fun _ => rfl) rfl rfl rfl
  | undelivered => exact h.calm rfl rfl rfl rfl rfl (fun _ => rfl) rfl rfl rfl
  | @delivered exporter _ _ _ hexp hd =>
    refine h.calm rfl rfl rfl rfl rfl (fun file => ?_) rfl rfl rfl
    have hspared := hx l.exportRequest exporter l.writer.medium file
    rwa [hd] at hspared
  | gated => exact h.calm rfl rfl rfl rfl rfl (fun _ => rfl) rfl rfl rfl
  | refused => exact h.calm rfl rfl rfl rfl rfl (fun _ => rfl) rfl rfl rfl
  | @offered r _ _ _ he hr hw =>
    cases hw with
    | disabled he' => simp [he] at he'
    | unconfigured | unavailable =>
      exact h.calm rfl rfl rfl rfl rfl (fun _ => rfl) rfl rfl rfl
    | openFailed _ _ _ hf => exact of_closed hf
    | @opened path file medium result requests w _ _ hq _ hc happends =>
      refine ⟨hnamed, fun file' hfile => ?_⟩
      have hsame : file = file' := by simpa [happends.file_eq] using hfile
      subst hsame
      -- The account of the new file starts here.
      have hfresh := Stored.empty (w := { l.writer with
        medium := medium, file := some file, byteCount := 0, full := false }) rfl hq
      rw [← ha.create_ok hc] at hfresh
      obtain ⟨torn, hstored⟩ :=
        hfresh.append ha hq hr happends (e := l.eventOf (.log r) _ _) rfl rfl
      exact ⟨_, torn, .start past (by simp [Event.created, eventOf, Request.path?]), hstored⟩
    | @held path file _ _ _ _ _ hq hf happends =>
      refine ⟨hnamed, fun file' hfile => ?_⟩
      have hsame : file = file' := by simpa [happends.file_eq, hf] using hfile
      subst hsame
      obtain ⟨since, torn, hsince, hstored⟩ := h.stored file hf
      obtain ⟨torn, hstored⟩ :=
        hstored.append ha hq hr happends (e := l.eventOf (.log r) _ _) rfl rfl
      exact ⟨_, torn, hsince.snoc happends.created_eq, hstored⟩

end Accounts

/-- Whatever has been called, an open file holds the records written since it was created, and
behind them nothing, or the beginning of the one record whose write failed. The counter counts the
former, and the budget bounds both. The reader gives the former back and fails at the latter. -/
theorem stored_after [Storage σ η] [Exporter ξ σ] (ha : Appending content)
    (hx : Sparing ξ content) (medium : σ) (exporter : Option ξ) (calls : List Call) (file : η) :
    let start : Logger σ η ξ := (new medium).setExporter exporter
    let w := (start.after calls).writer
    let held := content file w.medium
    w.file = some file → ∃ since torn, SinceCreated (start.events calls) since ∧
      Stored w since held torn ∧
      (torn = [] → (RecordReader.start held).items.map (·.1) = (writtenRecords since).map .ok) ∧
      (torn ≠ [] → ∃ r, tornRecords since = [r] ∧ (RecordReader.start held).items.map (·.1) =
        (writtenRecords since).map .ok ++
          [.error (.truncated w.byteCount.toNat (r.needed torn.length) torn.length)]) := by
  intro start w held hfile
  have hstart : start.Accounts content [] := .of_closed rfl
  have haccounts : (start.after calls).Accounts content ([] ++ start.events calls) :=
    history_induction (R := fun _ => True) (fun h hp _ => h.step ha hx hp) hstart fun _ _ => trivial
  obtain ⟨since, torn, hsince, hstored⟩ := haccounts.stored file hfile
  exact ⟨since, torn, hsince, hstored, hstored.items_eq⟩

/-- A log on a device that is full after thirty bytes. -/
def fullDevice : Logger Memory String (List ExportRequest) :=
  (new { Memory.empty with limit := some 30 }).setExporter (some [])

set_option maxRecDepth 8000 in
/-- On that device the second record is torn off. -/
theorem stored_on_full_device :
    let calls : List Call := [.setLogFile "trace.bin" 100, .log default, .dumpTrace, .log default]
    let w := (fullDevice.after calls).writer
    w.file = some "trace.bin" ∧ w.fault = some .writeFailed ∧
      ∃ since torn, SinceCreated (fullDevice.events calls) since ∧
        Stored w since (w.medium.content "trace.bin") torn := by
  intro calls w
  have hfile : (fullDevice.after calls).writer.file = some "trace.bin" := by
    simp only [calls, after_cons, after_nil]
    cbv
  have hfault : (fullDevice.after calls).writer.fault = some .writeFailed := by
    simp only [calls, after_cons, after_nil]
    cbv
  obtain ⟨since, torn, hsince, hstored, -⟩ := stored_after Memory.appending
    (sparing_notes _) { Memory.empty with limit := some 30 } (some []) calls "trace.bin" hfile
  exact ⟨hfile, hfault, since, torn, hsince, hstored⟩

end Logger

end TraceJournal
