import TraceJournal.Proofs.Log.Counter
import TraceJournal.Proofs.Log.Stored
import TraceJournal.Proofs.Message.Arrivals

/-!
# What a drain accounts for

From any state of a log, a drain counts every record once and answers every command once, the bytes
that it counts are those of the records written, and the counter of the writer grows by exactly these.
-/
namespace TraceJournal

theorem filterMap_snoc {α β : Type} (f : α → Option β) (xs : List α) (x : α) :
    (xs ++ [x]).filterMap f = xs.filterMap f ++ (f x).toList := by
  cases h : f x <;> simp [h]

def CommandStatus.id (status : CommandStatus) : UInt32 × UInt32 := (status.opcode, status.seq)

def Handled.status? : Handled → Option CommandStatus
  | trace _ => none
  | command status => some status

namespace Summary

def records (s : Summary) : Nat :=
  s.written + s.disabled + s.unconfigured + s.unavailable + s.capReached + s.errors

theorem commands_add (s : Summary) (handled : Handled) :
    (s.add handled).commands = s.commands ++ handled.status?.toList := by
  rcases handled with ⟨_ | d⟩ | status
  · simp [add, Handled.status?]
  · cases d <;> simp [add, Handled.status?]
  · simp [add, Handled.status?]

theorem records_add_trace (s : Summary) (result : Except LogError Disposition) :
    (s.add (.trace result)).records = s.records + 1 := by
  rcases result with _ | d
  · rfl
  · cases d <;> simp only [add, records] <;> omega

end Summary

namespace Logger

variable {σ η ξ : Type} [Exporter ξ σ]

/-- An exporter is attached, and fails when it is asked now. -/
def ExportFails (l : Logger σ η ξ) : Prop :=
  ∃ exporter error, l.exporter = some exporter ∧
    (Exporter.deliver l.exportRequest exporter l.writer.medium).1 = .error error

/-- The status that a log in this state owes to a command. Moving the gate always succeeds, and a
request for a data product fails only if the exporter does. -/
inductive Owes (l : Logger σ η ξ) : Message → CommandStatus → Prop
  | enableTrace (opcode seq : UInt32) (enable : Bool) :
      Owes l (.enableTrace opcode seq enable) ⟨opcode, seq, .ok⟩
  | dumpTrace {opcode seq : UInt32} (h : ¬ l.ExportFails) :
      Owes l (.dumpTrace opcode seq) ⟨opcode, seq, .ok⟩
  | dumpTraceFailed {opcode seq : UInt32} (h : l.ExportFails) :
      Owes l (.dumpTrace opcode seq) ⟨opcode, seq, .executionError⟩

variable [Storage σ η]

/-- The statuses for some messages: one for each command, in the order of arrival and under its
opcode and sequence number, as the log owes it in the state that the command finds it in. -/
structure Answers (l : Logger σ η ξ) (messages : List Message) (statuses : List CommandStatus) :
    Prop where
  ids : statuses.map CommandStatus.id = messages.filterMap Message.command?
  owed : ∀ {past message rest id}, messages = past ++ message :: rest →
    message.command? = some id → ∃ status,
      statuses[(past.filterMap Message.command?).length]? = some status ∧
        (l.drain past).2.Owes message status

section

variable {l l' : Logger σ η ξ} {message : Message} {e : Event} {handled : Handled}
  {past : List Message} {statuses : List CommandStatus} {s : Summary}

theorem Answers.empty (l : Logger σ η ξ) : l.Answers [] [] where
  ids := rfl
  owed := by simp

theorem Answers.snoc (h : l.Answers past statuses) {status? : Option CommandStatus}
    (hid : status?.map CommandStatus.id = message.command?)
    (howed : ∀ status, status? = some status → (l.drain past).2.Owes message status) :
    l.Answers (past ++ [message]) (statuses ++ status?.toList) where
  ids := by
    rw [List.map_append, h.ids, filterMap_snoc, ← hid]
    cases status? <;> rfl
  owed := by
    intro before m rest id hsplit hm
    rcases List.eq_nil_or_concat rest with rfl | ⟨rest, last, rfl⟩
    · obtain ⟨rfl, rfl⟩ := List.append_singleton_inj.1 hsplit
      rw [hm] at hid
      obtain ⟨status, rfl, -⟩ := Option.map_eq_some_iff.1 hid
      refine ⟨status, ?_, howed status rfl⟩
      rw [← h.ids, List.length_map, Option.toList_some]
      simp
    · have hshift : past ++ [message] = (before ++ m :: rest) ++ [last] := by
        rw [hsplit, List.append_assoc, List.cons_append, List.concat_eq_append]
      obtain ⟨rfl, -⟩ := List.append_singleton_inj.1 hshift
      obtain ⟨status, hstatus, ho⟩ := h.owed rfl hm
      obtain ⟨hlt, -⟩ := List.getElem?_eq_some_iff.1 hstatus
      exact ⟨status, (List.getElem?_append_left hlt).trans hstatus, ho⟩

theorem Serves.status?_id (hs : l.Serves message e handled l') :
    handled.status?.map CommandStatus.id = message.command? := by
  cases hs <;> rfl

theorem Serves.owes (hs : l.Serves message e handled l') {status : CommandStatus}
    (hstatus : handled.status? = some status) : l.Owes message status := by
  cases hs with
  | gated | refused | offered => cases hstatus
  | switched enable =>
    cases hstatus
    exact .enableTrace _ _ enable
  | undelivered hx =>
    cases hstatus
    exact .dumpTrace (by simp [ExportFails, hx])
  | @delivered _ _ exporter _ result _ hx hd =>
    cases hstatus
    cases result with
    | error error => exact .dumpTraceFailed ⟨exporter, error, hx, by rw [hd]⟩
    | ok done => exact .dumpTrace (by simp [ExportFails, hx, hd])

theorem drain_answers (l : Logger σ η ξ) (messages : List Message) :
    l.Answers messages (l.drain messages).1.commands := by
  induction messages using List.reverseRecOn with
  | nil => exact .empty l
  | append_singleton past message ih =>
    have hs := (l.drain past).2.dispatch_serves message
    rw [drain_snoc, Summary.commands_add]
    exact ih.snoc hs.status?_id fun _ => hs.owes

theorem Serves.records_add (hs : l.Serves message e handled l') (s : Summary) :
    (s.add handled).records = s.records + message.record?.toList.length := by
  cases hs with
  | gated | refused | offered => exact s.records_add_trace _
  | switched | undelivered | delivered => rfl

theorem Serves.written_add (hs : l.Serves message e handled l') (s : Summary) :
    (s.add handled).written = s.written + e.written?.toList.length ∧
      (s.add handled).bytesWritten = s.bytesWritten + e.answer.written ∧
      totalSize e.written?.toList = e.answer.written := by
  cases hs with
  | gated | refused | switched | undelivered | delivered => exact ⟨rfl, rfl, rfl⟩
  | @offered r result _ _ he hr hw =>
    rcases result with _ | d
    · exact ⟨rfl, rfl, rfl⟩
    · cases d with
      | written n =>
        have hn := hw.length_of_written
        subst hn
        exact ⟨rfl, rfl, r.length_wire.symm⟩
      | disabled | unconfigured | unavailable | capReached => exact ⟨rfl, rfl, rfl⟩

theorem Serves.configured?_eq_none (hs : l.Serves message e handled l') :
    e.configured? = none := by
  cases hs <;> rfl

end

/-- What a drain that started at the count `before` has counted, beside what has taken place. -/
structure Accounted (before : Nat) (past : List Message) (s : Summary) (es : List Event)
    (w : Writer σ η) : Prop where
  records : s.records = (past.filterMap Message.record?).length
  written : s.written = (writtenRecords es).length
  bytesWritten : s.bytesWritten = totalSize (writtenRecords es)
  byteCount : w.byteCount.toNat = before + s.bytesWritten
  countsFromZero : w.CountsFromZero

theorem Accounted.step {before : Nat} {past : List Message} {s : Summary} {es : List Event}
    {l l' : Logger σ η ξ} {message : Message} {e : Event} {handled : Handled}
    (h : Accounted before past s es l.writer) (hp : l.Performs e l')
    (hm : message.Handles e handled) :
    Accounted before (past ++ [message]) (s.add handled) (es ++ [e]) l'.writer := by
  have hs := hp.serves hm
  obtain ⟨hwritten, hbytes, hsize⟩ := hs.written_add s
  have htaken : writtenRecords (es ++ [e]) = writtenRecords es ++ e.written?.toList :=
    filterMap_snoc ..
  constructor
  · rw [hs.records_add, h.records, filterMap_snoc, List.length_append]
  · rw [hwritten, h.written, htaken, List.length_append]
  · rw [hbytes, h.bytesWritten, htaken, totalSize_append, hsize]
  · rw [hp.byteCount_eq h.countsFromZero hs.configured?_eq_none, h.byteCount, hbytes,
      Nat.add_assoc]
  · exact hp.countsFromZero h.countsFromZero

/-- Every record that a drain is given is counted in one way. Every command is answered once and as it
is owed. The bytes counted are the sizes of the records written, and the counter of the writer grows
by them, since a file that the drain creates was counted from zero. -/
theorem drain_accounts {l : Logger σ η ξ} (h : l.Reachable) (messages : List Message) :
    let s := (l.drain messages).1
    let taken := writtenRecords (l.events (messages.map Message.call))
    s.written + s.disabled + s.unconfigured + s.unavailable + s.capReached + s.errors =
        (messages.filterMap Message.record?).length ∧
      l.Answers messages s.commands ∧
      s.written = taken.length ∧ s.bytesWritten = totalSize taken ∧
      (l.drain messages).2.writer.byteCount.toNat = l.writer.byteCount.toNat + s.bytesWritten := by
  intro s taken
  have hstart : Accounted l.writer.byteCount.toNat [] .empty [] l.writer :=
    ⟨rfl, rfl, rfl, rfl, h.countsFromZero⟩
  have hend := drain_induction
    (P := fun past s es now => Accounted l.writer.byteCount.toNat past s es now.writer)
    (fun h hp hm => h.step hp hm) hstart messages
  exact ⟨hend.records, l.drain_answers messages, hend.written, hend.bytesWritten, hend.byteCount⟩

/-- A log on a device that is full after thirty bytes, with an exporter that fails. -/
def failingLog : Logger Memory String IoError :=
  ((new { Memory.empty with limit := some 30 }).setExporter (some .notFound)).after
    [.setLogFile "trace.bin" 100]

/-- All three records are counted there and both commands answered, whatever the device and the
exporter make of them. -/
theorem drain_accounts_failingLog :
    let messages : List Message := [.trace default, .dumpTrace 1 7, .trace default,
      .enableTrace 0 8 false, .trace default]
    let s := (failingLog.drain messages).1
    failingLog.Reachable ∧
      s.written + s.disabled + s.unconfigured + s.unavailable + s.capReached + s.errors = 3 ∧
      s.commands.map CommandStatus.id = [(1, 7), (0, 8)] ∧
      (∃ status, s.commands[0]? = some status ∧
        (failingLog.drain [.trace default]).2.Owes (.dumpTrace 1 7) status) ∧
      (failingLog.drain messages).2.writer.byteCount.toNat =
        failingLog.writer.byteCount.toNat + s.bytesWritten := by
  intro messages s
  have hreach : failingLog.Reachable := ((Reachable.new _).setExporter _).after _
  obtain ⟨hrecords, hanswers, -, -, hcount⟩ := drain_accounts hreach messages
  have hdump : messages = [.trace default] ++ .dumpTrace 1 7 ::
      [.trace default, .enableTrace 0 8 false, .trace default] := rfl
  exact ⟨hreach, hrecords, hanswers.ids, hanswers.owed hdump rfl, hcount⟩

end Logger

end TraceJournal
