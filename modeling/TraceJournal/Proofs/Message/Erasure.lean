import TraceJournal.Proofs.Log.Cap
import TraceJournal.Proofs.Message.Arrivals
import TraceJournal.Proofs.Message.Drain
import TraceJournal.Proofs.Storage.Laws

/-!
# Messages without effect

A record that finds the gate shut or cannot be encoded, a command that leaves the gate as it is, and a
request for a data product do nothing to a log and its medium. Draining messages without them asks
the same of the medium, ends in the same writer, and counts the same but for what was left out.
-/
namespace TraceJournal

namespace Message

/-- Messages in order, each with whether the gate is open when it arrives. -/
def timeline (enabled : Bool) : List Message → List (Bool × Message)
  | [] => []
  | message :: messages => (enabled, message) :: timeline (gate enabled [message]) messages

/-- Whether a message does nothing to a log when it finds the gate so. -/
def inert : Bool × Message → Bool
  | (on, trace r) => !on || !decide r.Encodable
  | (on, enableTrace _ _ enable) => enable == on
  | (_, dumpTrace _ _) => true

def gated : Bool × Message → Bool
  | (on, trace _) => !on
  | _ => false

/-- Whether a record finds the gate open and cannot be encoded. -/
def oversized : Bool × Message → Bool
  | (on, trace r) => on && !decide r.Encodable
  | _ => false

def effective (enabled : Bool) (messages : List Message) : List Message :=
  ((timeline enabled messages).filter fun arrival => !inert arrival).map (·.2)

/-- The messages that do nothing, each with whether the gate was open when it arrived. -/
def erased (enabled : Bool) (messages : List Message) : List (Bool × Message) :=
  (timeline enabled messages).filter inert

variable {enabled : Bool} {past : List Message} {message : Message}

theorem timeline_snoc (enabled : Bool) (past : List Message) (message : Message) :
    timeline enabled (past ++ [message]) =
      timeline enabled past ++ [(gate enabled past, message)] := by
  induction past generalizing enabled with
  | nil => rfl
  | cons first past ih =>
    have hgate : gate enabled (first :: past) = gate (gate enabled [first]) past :=
      gate_append enabled [first] past
    rw [List.cons_append, timeline, ih, timeline, hgate, List.cons_append]

theorem effective_snoc_of_inert (h : inert (gate enabled past, message) = true) :
    effective enabled (past ++ [message]) = effective enabled past := by
  simp [effective, timeline_snoc, h]

theorem erased_snoc_of_inert (h : inert (gate enabled past, message) = true) :
    erased enabled (past ++ [message]) =
      erased enabled past ++ [(gate enabled past, message)] := by
  simp [erased, timeline_snoc, h]

theorem effective_snoc (h : inert (gate enabled past, message) = false) :
    effective enabled (past ++ [message]) = effective enabled past ++ [message] := by
  simp [effective, timeline_snoc, h]

theorem erased_snoc (h : inert (gate enabled past, message) = false) :
    erased enabled (past ++ [message]) = erased enabled past := by
  simp [erased, timeline_snoc, h]

end Message

/-- Counts of a drain, and of the same drain without some messages that do nothing. -/
structure Spared (erased : List (Bool × Message)) (all few : Summary) : Prop where
  written : all.written = few.written
  bytesWritten : all.bytesWritten = few.bytesWritten
  unconfigured : all.unconfigured = few.unconfigured
  unavailable : all.unavailable = few.unavailable
  capReached : all.capReached = few.capReached
  errors : all.errors = few.errors + erased.countP Message.oversized
  disabled : all.disabled = few.disabled + erased.countP Message.gated

namespace Spared

variable {erased : List (Bool × Message)} {all few : Summary}

theorem empty : Spared [] .empty .empty := ⟨rfl, rfl, rfl, rfl, rfl, rfl, rfl⟩

theorem add (h : Spared erased all few) (handled : Handled) :
    Spared erased (all.add handled) (few.add handled) := by
  obtain ⟨hwritten, hbytes, hunconfigured, hunavailable, hcap, herrors, hdisabled⟩ := h
  rcases handled with ⟨_ | d⟩ | status
  · constructor <;> simp [Summary.add, *]
    omega
  · cases d <;> constructor <;> simp [Summary.add, *]
    omega
  · constructor <;> simp [Summary.add, *]

theorem gated (h : Spared erased all few) (r : Record) :
    Spared (erased ++ [(false, .trace r)]) (all.add (.trace (.ok .disabled))) few :=
  { h with
    errors := by simpa [Summary.add, Message.oversized] using h.errors
    disabled := by simp [Summary.add, Message.gated, h.disabled, Nat.add_assoc] }

theorem oversized (h : Spared erased all few) {r : Record} (hr : ¬ r.Encodable) (e : LogError) :
    Spared (erased ++ [(true, .trace r)]) (all.add (.trace (.error e))) few :=
  { h with
    errors := by simp [Summary.add, Message.oversized, hr, h.errors, Nat.add_assoc]
    disabled := by simpa [Summary.add, Message.gated] using h.disabled }

theorem command (h : Spared erased all few) (on : Bool) {message : Message}
    {id : UInt32 × UInt32} (hm : message.command? = some id) (status : CommandStatus) :
    Spared (erased ++ [(on, message)]) (all.add (.command status)) few := by
  cases message with
  | trace r => cases hm
  | enableTrace | dumpTrace =>
    exact { h with
      errors := by simpa [Summary.add, Message.oversized] using h.errors
      disabled := by simpa [Summary.add, Message.gated] using h.disabled }

end Spared

namespace Logger

variable {σ η ξ : Type} [Storage σ η]

section

variable (exporter : Option ξ) (l : Logger σ η ξ)

theorem log_setExporter (r : Record) :
    (l.setExporter exporter).log r = ((l.log r).1, (l.log r).2.setExporter exporter) := by
  unfold log setExporter
  dsimp only
  split
  · rfl
  · split <;> rfl

variable [Exporter ξ σ] {message : Message}

/-- Only a request for a data product depends on the exporter. -/
theorem dispatch_setExporter (hm : message.call ≠ .dumpTrace) :
    (l.setExporter exporter).dispatch message =
      ((l.dispatch message).1, (l.dispatch message).2.setExporter exporter) := by
  cases message with
  | trace r => simp only [dispatch, log_setExporter]
  | enableTrace opcode seq enable => rfl
  | dumpTrace => exact (hm rfl).elim

theorem event_setExporter (hm : message.call ≠ .dumpTrace) :
    (l.setExporter exporter).event message.call = l.event message.call := by
  cases message with
  | trace r =>
    have hr : (l.setExporter exporter).recording [] = (l.recording []).setExporter exporter := rfl
    simp only [Message.call, event, requests, perform, hr, log_setExporter]
    rfl
  | enableTrace opcode seq enable => rfl
  | dumpTrace => exact (hm rfl).elim

end

variable [Exporter ξ σ] {l l' : Logger σ η ξ} {message : Message} {e : Event} {handled : Handled}

/-- A message that does nothing leaves all but the exporter as it is, asks nothing of the medium, and
is counted as what it is. -/
theorem Serves.of_inert (hx : Untouching ξ σ) (hs : l.Serves message e handled l')
    (hi : Message.inert (l.writer.enabled, message) = true) :
    (∃ exporter, l' = l.setExporter exporter) ∧ e.requests = [] ∧
      ∀ {erased : List (Bool × Message)} {all few : Summary}, Spared erased all few →
        Spared (erased ++ [(l.writer.enabled, message)]) (all.add handled) few := by
  cases hs with
  | @gated r he =>
    rw [he]
    exact ⟨⟨l.exporter, rfl⟩, rfl, fun h => h.gated r⟩
  | refused he hr =>
    rw [he]
    exact ⟨⟨l.exporter, rfl⟩, rfl, fun h => h.oversized hr _⟩
  | offered he hr hw => simp [Message.inert, he, hr] at hi
  | switched enable =>
    have hsame : enable = l.writer.enabled := by simpa [Message.inert] using hi
    subst hsame
    exact ⟨⟨l.exporter, rfl⟩, rfl, fun h => h.command _ rfl _⟩
  | undelivered => exact ⟨⟨l.exporter, rfl⟩, rfl, fun h => h.command _ rfl _⟩
  | @delivered _ _ exporter exporter' _ medium hexp hd =>
    have huntouched := hx l.exportRequest exporter l.writer.medium
    rw [hd] at huntouched
    subst huntouched
    exact ⟨⟨some exporter', rfl⟩, rfl, fun h => h.command _ rfl _⟩

/-- Beside a log that drains all messages, one that leaves out those that do nothing keeps up: the two
differ in their exporter alone. -/
theorem drain_abreast (hx : Untouching ξ σ) (l : Logger σ η ξ) (messages : List Message) :
    let effective := Message.effective l.writer.enabled messages
    let few := l.drain effective
    (∃ exporter, (l.drain messages).2 = few.2.setExporter exporter) ∧
      (l.events (messages.map Message.call)).flatMap Event.requests =
        (l.events (effective.map Message.call)).flatMap Event.requests ∧
      Spared (Message.erased l.writer.enabled messages) (l.drain messages).1 few.1 := by
  induction messages using List.reverseRecOn with
  | nil => exact ⟨⟨l.exporter, rfl⟩, rfl, .empty⟩
  | append_singleton past message ih =>
    obtain ⟨⟨exporter, halike⟩, hrequests, hspared⟩ := ih
    have hgate := l.enabled_drain past
    have hs := (l.drain past).2.dispatch_serves message
    simp only [List.map_append, List.map_singleton, events_snoc, ← drain_after, drain_snoc,
      List.flatMap_append, List.flatMap_singleton]
    cases hi : Message.inert (Message.gate l.writer.enabled past, message) with
    | true =>
      obtain ⟨⟨next, hnext⟩, hquiet, hcount⟩ := hs.of_inert hx (by rw [hgate, hi])
      rw [Message.effective_snoc_of_inert hi, Message.erased_snoc_of_inert hi, hquiet,
        List.append_nil, hnext, ← hgate]
      exact ⟨⟨next, by rw [halike]; rfl⟩, hrequests, hcount hspared⟩
    | false =>
      have hne : message.call ≠ .dumpTrace := by
        cases message with
        | trace | enableTrace => simp [Message.call]
        | dumpTrace => cases hi
      rw [Message.effective_snoc hi, Message.erased_snoc hi, halike, dispatch_setExporter _ _ hne,
        event_setExporter _ _ hne]
      simp only [List.map_append, List.map_singleton, events_snoc, ← drain_after, drain_snoc,
        List.flatMap_append, List.flatMap_singleton]
      exact ⟨⟨exporter, rfl⟩, by rw [hrequests], hspared.add _⟩

/-- Draining messages is the same as draining those of them that do something: the requests made of
the medium, the writer and the encoder afterwards, and the counts but for the records left out. -/
theorem drain_effective (hx : Untouching ξ σ) (l : Logger σ η ξ) (messages : List Message) :
    let effective := Message.effective l.writer.enabled messages
    let erased := Message.erased l.writer.enabled messages
    let all := l.drain messages
    let few := l.drain effective
    (l.events (messages.map Message.call)).flatMap Event.requests =
        (l.events (effective.map Message.call)).flatMap Event.requests ∧
      all.2.writer = few.2.writer ∧ all.2.encoder = few.2.encoder ∧
      Spared erased all.1 few.1 := by
  intro effective erased all few
  obtain ⟨⟨exporter, halike⟩, hrequests, hspared⟩ := drain_abreast hx l messages
  have hall : all.2 = few.2.setExporter exporter := halike
  rw [hall]
  exact ⟨hrequests, rfl, rfl, hspared⟩

set_option maxRecDepth 8000 in
/-- Of these messages, a log with little room left has to handle only three: the first one meets the
budget, and two commands move the gate. -/
theorem drain_effective_tightLog :
    let messages : List Message := [.trace default, .enableTrace 0 1 true, .dumpTrace 1 2,
      .enableTrace 0 3 false, .trace default, .enableTrace 0 4 true,
      .trace { (default : Record) with payload := List.replicate 257 0 }]
    let few : List Message := [.trace default, .enableTrace 0 3 false, .enableTrace 0 4 true]
    Untouching (List ExportRequest) Memory ∧
      Message.effective tightLog.writer.enabled messages = few ∧
      (tightLog.drain messages).2.writer = (tightLog.drain few).2.writer ∧
      (tightLog.drain messages).1.disabled = (tightLog.drain few).1.disabled + 1 ∧
      (tightLog.drain messages).1.errors = (tightLog.drain few).1.errors + 1 := by
  intro messages few
  have hon : tightLog.writer.enabled = true := by
    simp only [tightLog, after_cons, after_nil]
    cbv
  have hfew : Message.effective tightLog.writer.enabled messages = few := by
    rw [hon]
    decide
  have herased : (Message.erased tightLog.writer.enabled messages).countP Message.gated = 1 ∧
      (Message.erased tightLog.writer.enabled messages).countP Message.oversized = 1 := by
    rw [hon]
    decide
  have hx := untouching_notes Memory
  obtain ⟨-, hwriter, -, hspared⟩ := drain_effective hx tightLog messages
  rw [hfew] at hwriter hspared
  exact ⟨hx, hfew, hwriter, by rw [hspared.disabled, herased.1], by rw [hspared.errors, herased.2]⟩

end Logger

end TraceJournal
