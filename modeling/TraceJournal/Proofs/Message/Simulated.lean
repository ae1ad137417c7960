import TraceJournal.Bench.Run
import TraceJournal.Proofs.Message.Accounting
import TraceJournal.Proofs.Message.GreedyPrefix
import TraceJournal.Proofs.Record.Exactness
import TraceJournal.Proofs.Storage.Durable
import TraceJournal.Proofs.Traffic

/-!
# Replaying simulated traffic

Simulated traffic holds only records that can be encoded. On a medium that fails nothing, a new log
without exporter accounts for all of them, answers every command, and is decoded as what it has
written.
-/
namespace TraceJournal

namespace Message

/-- The records that arrive while the gate is open, if it starts like this. -/
def admitted (enabled : Bool) (messages : List Message) : List Record :=
  ((arrivals enabled messages).filter (·.1)).map (·.2)

theorem map_snd_arrivals (enabled : Bool) (messages : List Message) :
    (arrivals enabled messages).map (·.2) = messages.filterMap record? := by
  induction messages generalizing enabled with
  | nil => rfl
  | cons message messages ih =>
    cases message with
    | trace r => exact congrArg (r :: ·) (ih enabled)
    | enableTrace opcode seq enable => exact ih enable
    | dumpTrace opcode seq => exact ih enabled

/-- A switch in front of all others decides how the gate starts. -/
theorem admitted_switch (opcode seq : UInt32) (enable : Bool) (messages : List Message) :
    admitted true (.enableTrace opcode seq enable :: messages) = admitted enable messages := rfl

section

variable {messages : List Message} (h : ∀ r ∈ messages.filterMap record?, r.Encodable)

include h

theorem encodable_of_arrivals {enabled : Bool} : ∀ a ∈ arrivals enabled messages, a.2.Encodable := by
  intro a ha
  apply h
  rw [← map_snd_arrivals enabled]
  exact List.mem_map_of_mem ha

theorem encodable_of_admitted {enabled : Bool} : ∀ r ∈ admitted enabled messages, r.Encodable := by
  intro r hr
  rcases List.mem_map.1 hr with ⟨a, ha, rfl⟩
  exact encodable_of_arrivals h a (List.mem_of_mem_filter ha)

/-- If all records can be encoded, those that arrive while the gate is open are offered. -/
theorem offeredRecords_eq_admitted : offeredRecords messages = admitted true messages := by
  rw [offeredRecords, admitted]
  congr 1
  apply List.filter_congr
  rintro ⟨on, r⟩ ha
  simp [encodable_of_arrivals h _ ha]

theorem oversizedCount_eq_zero : oversizedCount messages = 0 := by
  rw [oversizedCount, List.countP_eq_zero]
  rintro ⟨on, r⟩ ha
  simp [encodable_of_arrivals h _ ha]

end

end Message

namespace Summary

def answerFirst (status : CommandStatus) (s : Summary) : Summary :=
  { s with commands := status :: s.commands }

theorem add_answerFirst (status : CommandStatus) (s : Summary) (handled : Handled) :
    (s.answerFirst status).add handled = (s.add handled).answerFirst status := by
  rcases handled with ⟨_ | d⟩ | _
  · rfl
  · cases d <;> rfl
  · rfl

end Summary

namespace Logger

variable {σ η ξ : Type} [Storage σ η] [Exporter ξ σ] {l l' : Logger σ η ξ} {message : Message}
  {e : Event} {handled : Handled}

/-- Moving the gate before a drain is the same as a switch in front of the messages, but for the
answer to that. -/
theorem drain_switch (opcode seq : UInt32) (enable : Bool) (messages : List Message)
    (l : Logger σ η ξ) :
    l.drain (.enableTrace opcode seq enable :: messages) =
      (((l.setEnabled enable).drain messages).1.answerFirst ⟨opcode, seq, .ok⟩,
        ((l.setEnabled enable).drain messages).2) := by
  induction messages using List.reverseRecOn with
  | nil => rfl
  | append_singleton messages message ih =>
    rw [← List.cons_append, drain_snoc, ih, drain_snoc, Summary.add_answerFirst]

theorem records_drain (messages : List Message) (l : Logger σ η ξ) :
    (l.drain messages).1.records = (messages.filterMap Message.record?).length := by
  induction messages using List.reverseRecOn with
  | nil => rfl
  | append_singleton messages message ih =>
    have hs := (l.drain messages).2.dispatch_serves message
    rw [drain_snoc, hs.records_add, ih, filterMap_snoc, List.length_append]

/-- Without exporter every command succeeds, and none appears. -/
theorem Serves.without_exporter (hs : l.Serves message e handled l') (hx : l.exporter = none) :
    l'.exporter = none ∧ ∀ status ∈ handled.status?, status.response = .ok := by
  cases hs with
  | gated | refused | offered => exact ⟨hx, by simp [Handled.status?]⟩
  | switched | undelivered => exact ⟨hx, by simp [Handled.status?]⟩
  | delivered hsome => simp [hx] at hsome

end Logger

section

variable {σ η ξ : Type} [Storage σ η] {path : String} {budget : UInt32} {medium : σ}
  {ready : σ → Prop} {usable : η → σ → Prop} {content : η → σ → List UInt8}
  {found : σ → Option (List UInt8)} {w : Writer σ η} {offered : List Record}

/-- Closing succeeds. What fits of the records offered is found then; if there was none, nothing has
been done to the medium. -/
theorem Holding.close (hd : Durable path ready usable content found)
    (h : Holding path budget (· = medium) usable content w offered) :
    w.close.1 = .ok () ∧
      (offered = [] ∧ w.close.2.medium = medium ∨
        offered ≠ [] ∧
          found w.close.2.medium = some ((fitting budget.toNat offered).flatMap Record.wire)) := by
  cases h with
  | fresh hn hq hm hf hr hc =>
    have hclose : w.close = (.ok (), w) := by rw [Writer.close, hf]
    rw [hclose]
    exact ⟨rfl, .inl ⟨rfl, hr⟩⟩
  | opened hne h =>
    rcases hd.flush h.usable with ⟨after, hflush, hfound⟩
    have hclose : w.close = (.ok (), { w with medium := after, file := none, fileName := none }) := by
      simp [Writer.close, h.file_eq, hflush]
    rw [hclose]
    exact ⟨rfl, .inr ⟨hne, by rw [hfound, h.content_eq]⟩⟩

/-- A log without exporter that drains messages. -/
structure Replaying [Exporter ξ σ] (path : String) (budget : UInt32) (ready : σ → Prop)
    (usable : η → σ → Prop) (content : η → σ → List UInt8) (past : List Message) (s : Summary)
    (es : List Event) (l : Logger σ η ξ) : Prop
    extends Draining path budget ready usable content past s es l where
  exporter : l.exporter = none
  responses : ∀ status ∈ s.commands, status.response = .ok

theorem Replaying.step [Exporter ξ σ] {past : List Message} {s : Summary} {es : List Event}
    {l l' : Logger σ η ξ} {message : Message} {e : Event} {handled : Handled}
    (hrel : Reliable path ready usable content)
    (h : Replaying path budget ready usable content past s es l) (hp : l.Performs e l')
    (hh : message.Handles e handled) :
    Replaying path budget ready usable content (past ++ [message]) (s.add handled) (es ++ [e]) l' := by
  have hdraining := h.toDraining.step_of hrel (by simp [h.exporter]) hp hh
  rcases (hp.serves hh).without_exporter h.exporter with ⟨hexporter, hresponse⟩
  refine ⟨hdraining, hexporter, ?_⟩
  rw [Summary.commands_add]
  exact List.forall_mem_append.2 ⟨h.responses, by simpa using hresponse⟩

/-- Draining any messages from a log that is new but for the start of its gate. -/
theorem replaying_drain [Exporter ξ σ] (hrel : Reliable path ready usable content)
    (hpath : 1 ≤ path.utf8ByteSize ∧ path.utf8ByteSize ≤ maxNameLength) (hm : ready medium)
    (budget : UInt32) (enabled : Bool) (messages : List Message) :
    let chosen := (Logger.new medium : Logger σ η ξ).setLogFile path budget
    let drained := (chosen.2.setEnabled enabled).drain messages
    chosen.1 = .ok () ∧ ∃ es, Replaying path budget ready usable content
      (.enableTrace 0 0 enabled :: messages) (drained.1.answerFirst ⟨0, 0, .ok⟩) es drained.2 := by
  intro chosen drained
  have hnew : chosen.1 = .ok () ∧
      Draining path budget ready usable content [] .empty [] chosen.2 :=
    setLogFile_new medium none budget hpath hm
  have hreplaying : Replaying path budget ready usable content [] .empty [] chosen.2 :=
    ⟨hnew.2, rfl, by simp [Summary.empty]⟩
  have hend := Logger.drain_induction (fun h hp hh => Replaying.step hrel h hp hh) hreplaying
    (.enableTrace 0 0 enabled :: messages)
  rw [Logger.drain_switch] at hend
  exact ⟨hnew.1, _, hend⟩

end

theorem seqs_of_ids {statuses : List CommandStatus} {ids : List (UInt32 × UInt32)} {first count : Nat}
    (hids : statuses.map CommandStatus.id = ids)
    (hseqs : ids.map (·.2.toNat) = List.range' first count) :
    statuses.map (·.seq.toNat) = List.range' first statuses.length := by
  rw [← hids, List.map_map] at hseqs
  have hlength := congrArg List.length hseqs
  rw [List.length_map, List.length_range'] at hlength
  rw [hlength, ← hseqs]
  rfl

/-- A summary that accounts for this many events: each is written, or arrived while the gate was shut,
or was dropped for the budget. Every command among the messages succeeds, and they are numbered from
one on. -/
structure Summary.Flawless (events : Nat) (messages : List Message) (s : Summary) : Prop where
  errors : s.errors = 0
  unconfigured : s.unconfigured = 0
  unavailable : s.unavailable = 0
  records : s.written + s.disabled + s.capReached = events
  ids : s.commands.map CommandStatus.id = messages.filterMap Message.command?
  responses : ∀ status ∈ s.commands, status.response = .ok
  seqs : s.commands.map (·.seq.toNat) = List.range' 1 s.commands.length

theorem Summary.flawless_of_rounds {limit events : Nat} {messages : List Message} {last : Traffic}
    {kept : List Record} {enabled : Bool} {s : Summary}
    (hrounds : Traffic.Rounds limit events .start messages last) (hlimit : limit ≤ maxPayload)
    (hevents : events < UInt32.size)
    (htallied : Tallied kept (.enableTrace 0 0 enabled :: messages) (s.answerFirst ⟨0, 0, .ok⟩))
    (hrecords : s.records = (messages.filterMap Message.record?).length)
    (hresponses : ∀ status ∈ s.commands, status.response = .ok) : s.Flawless events messages := by
  have herrors : s.errors = 0 :=
    htallied.errors.trans (Message.oversizedCount_eq_zero (hrounds.encodable hlimit))
  have hunconfigured : s.unconfigured = 0 := htallied.unconfigured
  have hunavailable : s.unavailable = 0 := htallied.unavailable
  have hids : s.commands.map CommandStatus.id = messages.filterMap Message.command? :=
    (List.cons.inj htallied.commands).2
  rcases hrounds.seqs (by simpa [Traffic.start] using hevents) with ⟨count, -, hseqs⟩
  refine ⟨herrors, hunconfigured, hunavailable, ?_, hids, hresponses, seqs_of_ids hids hseqs⟩
  rw [hrounds.records.1, Summary.records] at hrecords
  omega

namespace Bench

/-- The check is passed by the logs that can be decoded and hold as many records as were written. -/
theorem check_eq_ok_iff {log : List UInt8} {written count : Nat} :
    check log written = .ok count ↔
      ∃ rs, Record.decodeAll log = .ok rs ∧ rs.length = written ∧ rs.length = count := by
  rw [check]
  cases Record.decodeAll log with
  | error e =>
    constructor
    · intro h
      cases h
    · rintro ⟨rs, h, -⟩
      cases h
  | ok rs =>
    change (if rs.length = written then Except.ok rs.length else _) = .ok count ↔ _
    split <;> next hwritten => simp [hwritten]

/-- A log whose records are as many as were written, the first of those that arrived while the gate was
open. -/
structure Passes (log : List UInt8) (written : Nat) (arrived : List Record) : Prop where
  decoded : ∃ kept, Record.decodeAll log = .ok kept ∧ kept.length = written ∧ kept <+: arrived
  checked : check log written = .ok written

theorem passes_fitting {budget : Nat} {arrived : List Record} (h : ∀ r ∈ arrived, r.Encodable) :
    Passes ((fitting budget arrived).flatMap Record.wire) (fitting budget arrived).length arrived := by
  have hpart := fitting_isPrefix budget arrived
  have hdecode := Record.decodeAll_eq_ok_iff.2 ⟨fun r hr => h r (hpart.subset hr), rfl⟩
  exact ⟨⟨_, hdecode, rfl, hpart⟩, check_eq_ok_iff.2 ⟨_, hdecode, rfl, rfl⟩⟩

end Bench

/-- Replaying simulated traffic through a new log, with its gate open or shut at first, on a medium
that fails nothing: the summary is flawless. If no record arrives while the gate is open, nothing has
been done to the medium; else the log is found afterwards. What is found holds the records written and
passes the check of the benchmark, unless it lay there before and no record arrived like this: then it
is not what this log has written. -/
theorem replay_messages {σ η ξ : Type} [Storage σ η] [Exporter ξ σ] {path : String} {ready : σ → Prop}
    {usable : η → σ → Prop} {content : η → σ → List UInt8} {found : σ → Option (List UInt8)}
    (hd : Durable path ready usable content found)
    (hpath : 1 ≤ path.utf8ByteSize ∧ path.utf8ByteSize ≤ maxNameLength) {medium : σ}
    (hm : ready medium) (p : TrafficParams) (budget : UInt32) (enabled : Bool) :
    let messages := Traffic.messages p
    let arrived := Message.admitted enabled messages
    let chosen := (Logger.new medium : Logger σ η ξ).setLogFile path budget
    let drained := (chosen.2.setEnabled enabled).drain messages
    let closed := drained.2.closeFile
    chosen.1 = .ok () ∧ closed.1 = .ok () ∧ drained.1.Flawless p.events.toNat messages ∧
      (arrived = [] → closed.2.writer.medium = medium) ∧
      (arrived ≠ [] → ∃ log, found closed.2.writer.medium = some log) ∧
      ∀ log, found closed.2.writer.medium = some log → found medium = none ∨ arrived ≠ [] →
        Bench.Passes log drained.1.written arrived := by
  intro messages arrived chosen drained closed
  rcases Traffic.rounds_messages p with ⟨last, hrounds⟩
  have hlimit : p.payloadLimit ≤ maxPayload := Nat.min_le_right _ _
  have hencodable := hrounds.encodable hlimit
  have hdurable := hd.at hm
  rcases replaying_drain (ξ := ξ) hdurable.toReliable hpath rfl budget enabled messages with
    ⟨hchosen, es, hreplaying⟩
  have hflawless : drained.1.Flawless p.events.toNat messages :=
    Summary.flawless_of_rounds hrounds hlimit p.events.toNat_lt hreplaying.tallied
      (Logger.records_drain messages _) (List.forall_mem_cons.1 hreplaying.responses).2
  have hoffered : Message.offeredRecords (.enableTrace 0 0 enabled :: messages) = arrived := calc
    _ = Message.admitted true (.enableTrace 0 0 enabled :: messages) :=
      Message.offeredRecords_eq_admitted hencodable
    _ = arrived := Message.admitted_switch 0 0 enabled messages
  have htallied := hreplaying.tallied
  rcases hreplaying.holding.close hdurable with ⟨hclosed, hfound⟩
  rw [hoffered] at hfound htallied
  have hwritten : drained.1.written = (fitting budget.toNat arrived).length := htallied.written
  refine ⟨hchosen, hclosed, hflawless, ?_⟩
  rcases hfound with ⟨hnone, hmedium⟩ | ⟨hsome, hlog⟩
  · refine ⟨fun _ => hmedium, fun hsome => absurd hnone hsome, fun log hlog hfresh => ?_⟩
    -- The log is found where it was found before.
    have hbefore : found medium = some log := hmedium ▸ hlog
    rcases hfresh with hfresh | hsome
    · cases hbefore.symm.trans hfresh
    · exact absurd hnone hsome
  · refine ⟨fun hnone => absurd hnone hsome, fun _ => ⟨_, hlog⟩, fun log hfound _ => ?_⟩
    cases hlog.symm.trans hfound
    rw [hwritten]
    exact Bench.passes_fitting (Message.encodable_of_admitted hencodable)

/-- In an empty file system, with the usual parameters: a log that is found passes the check. -/
theorem replay_messages_emptyDisk :
    let messages := Traffic.messages .initial
    let chosen := (Logger.new FileSystem.empty : Logger FileSystem Nat Snapshots).setLogFile
      "trace.bin" defaultMaxSize
    let drained := (chosen.2.setEnabled true).drain messages
    FileSystem.empty.WellFormed ∧ FileSystem.empty.Writable "trace.bin" ∧
      FileSystem.empty.found "trace.bin" = none ∧
      drained.1.written + drained.1.disabled + drained.1.capReached = 64 ∧
      ∀ log, drained.2.closeFile.2.writer.medium.found "trace.bin" = some log →
        Bench.Passes log drained.1.written (Message.admitted true messages) := by
  have hwritable : FileSystem.empty.Writable "trace.bin" :=
    ⟨rfl, by decide, ⟨["home"], "trace.bin", rfl⟩, by decide⟩
  have hcount : TrafficParams.initial.events.toNat = 64 := rfl
  have hreplay := replay_messages (ξ := Snapshots) (FileSystem.durable "trace.bin") (by decide)
    ⟨FileSystem.wellFormed_empty, hwritable⟩ .initial defaultMaxSize true
  dsimp only at hreplay ⊢
  rw [hcount] at hreplay
  rcases hreplay with ⟨-, -, hflawless, -, -, hpasses⟩
  exact ⟨FileSystem.wellFormed_empty, hwritable, rfl, hflawless.records,
    fun log hlog => hpasses log hlog (.inl rfl)⟩

/-- A disk on which a file lies under the name of a log. -/
def FileSystem.leftover : FileSystem :=
  ⟨["home"], [(["home", "trace.bin"], .file 0)], [(0, .ofList [1, 2, 3])], []⟩

theorem FileSystem.wellFormed_leftover : leftover.WellFormed := by
  have hput : FileSystem.empty.put "trace.bin" [1, 2, 3] = .ok leftover := rfl
  exact (keeps_put wellFormed_empty hput).1.wellFormed

/-- One event that arrives while the gate is shut leaves the file under the name of the log as it is.
It is found afterwards, but it cannot be decoded and does not pass the check. -/
theorem replay_messages_leftover :
    let messages := Traffic.messages { TrafficParams.initial with events := 1 }
    let chosen := (Logger.new FileSystem.leftover : Logger FileSystem Nat Snapshots).setLogFile
      "trace.bin" defaultMaxSize
    let drained := (chosen.2.setEnabled false).drain messages
    let closed := drained.2.closeFile
    FileSystem.leftover.WellFormed ∧ FileSystem.leftover.Writable "trace.bin" ∧
      chosen.1 = .ok () ∧ closed.1 = .ok () ∧ drained.1.written = 0 ∧
      closed.2.writer.medium.found "trace.bin" = some [1, 2, 3] ∧
      (∀ rs, Record.decodeAll [1, 2, 3] ≠ .ok rs) ∧
      ∀ count, Bench.check [1, 2, 3] drained.1.written ≠ .ok count := by
  have hwritable : FileSystem.leftover.Writable "trace.bin" :=
    ⟨rfl, by decide, ⟨["home"], "trace.bin", rfl⟩, by decide⟩
  have hdecode : ∀ rs, Record.decodeAll [1, 2, 3] ≠ .ok rs := by
    intro rs h
    have hwire := congrArg List.length (Record.decodeAll_eq_ok_iff.1 h).2
    cases rs with
    | nil => cases hwire
    | cons r rs =>
      rw [List.flatMap_cons, List.length_append, Record.length_wire, Record.size] at hwire
      have hshort : [1, 2, 3].length < headerSize := by decide
      omega
  rcases Traffic.rounds_messages { TrafficParams.initial with events := 1 } with ⟨last, hrounds⟩
  intro messages chosen drained closed
  have hclosed : closed.1 = .ok () ∧ drained.1.written = 0 ∧
      closed.2.writer.medium = FileSystem.leftover := by
    dsimp only [closed, drained, chosen, messages]
    generalize Traffic.messages _ = sent at hrounds ⊢
    cases hrounds with
    | cons hcommands hevent h =>
      -- There may be a command in front of the event, but the first switch shuts the gate as well.
      cases h
      cases hevent
      cases hcommands <;> exact ⟨rfl, rfl, rfl⟩
  refine ⟨FileSystem.wellFormed_leftover, hwritable, rfl, hclosed.1, hclosed.2.1, ?_, hdecode, ?_⟩
  · rw [hclosed.2.2]
    rfl
  · intro count h
    rcases Bench.check_eq_ok_iff.1 h with ⟨rs, hrs, -⟩
    exact hdecode rs hrs

end TraceJournal
