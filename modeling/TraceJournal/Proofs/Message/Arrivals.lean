import TraceJournal.Proofs.Log.Latches
import TraceJournal.Proofs.Message.Drain
import TraceJournal.Proofs.Record.Fitting

/-!
# Records by how they arrive

The gate follows the commands among the messages, so the messages alone say which records arrive
while it is open, and how often everything that a drain counts takes place.
-/
namespace TraceJournal

namespace Message

/-- Whether the gate is open after some messages. -/
def gate (enabled : Bool) : List Message → Bool
  | [] => enabled
  | enableTrace _ _ enable :: messages => gate enable messages
  | trace _ :: messages | dumpTrace _ _ :: messages => gate enabled messages

/-- The records that arrive, each with whether the gate was open then. -/
def arrivals (enabled : Bool) : List Message → List (Bool × Record)
  | [] => []
  | trace r :: messages => (enabled, r) :: arrivals enabled messages
  | enableTrace _ _ enable :: messages => arrivals enable messages
  | dumpTrace _ _ :: messages => arrivals enabled messages

theorem gate_append (enabled : Bool) (past messages : List Message) :
    gate enabled (past ++ messages) = gate (gate enabled past) messages := by
  induction past generalizing enabled with
  | nil => rfl
  | cons message past ih => cases message <;> exact ih _

theorem arrivals_append (enabled : Bool) (past messages : List Message) :
    arrivals enabled (past ++ messages) =
      arrivals enabled past ++ arrivals (gate enabled past) messages := by
  induction past generalizing enabled with
  | nil => rfl
  | cons message past ih =>
    cases message with
    | trace r => exact congrArg _ (ih enabled)
    | enableTrace opcode seq enable => exact ih enable
    | dumpTrace opcode seq => exact ih enabled

def command? : Message → Option (UInt32 × UInt32)
  | trace _ => none
  | enableTrace opcode seq _ | dumpTrace opcode seq => some (opcode, seq)

def offeredRecords (messages : List Message) : List Record :=
  ((arrivals true messages).filter fun (on, r) => on && decide r.Encodable).map (·.2)

def gatedCount (messages : List Message) : Nat :=
  (arrivals true messages).countP fun (on, _) => !on

def oversizedCount (messages : List Message) : Nat :=
  (arrivals true messages).countP fun (on, r) => on && !decide r.Encodable

section

variable (past : List Message)

theorem gate_trace (r : Record) : gate true (past ++ [.trace r]) = gate true past :=
  gate_append true past [.trace r]

theorem arrivals_trace (r : Record) :
    arrivals true (past ++ [.trace r]) = arrivals true past ++ [(gate true past, r)] :=
  arrivals_append true past [.trace r]

theorem arrivals_command {message : Message} {id : UInt32 × UInt32}
    (hm : message.command? = some id) : arrivals true (past ++ [message]) = arrivals true past := by
  rw [arrivals_append]
  cases message with
  | trace r => cases hm
  | enableTrace | dumpTrace => exact List.append_nil _

theorem offeredRecords_trace (r : Record) :
    offeredRecords (past ++ [.trace r]) = offeredRecords past ++
      if gate true past = true ∧ r.Encodable then [r] else [] := by
  rw [offeredRecords, arrivals_trace, List.filter_append, List.map_append, ← offeredRecords]
  by_cases hg : gate true past <;> by_cases hr : r.Encodable <;> simp [hg, hr]

theorem offeredRecords_command {message : Message} {id : UInt32 × UInt32}
    (hm : message.command? = some id) :
    offeredRecords (past ++ [message]) = offeredRecords past := by
  rw [offeredRecords, arrivals_command past hm, offeredRecords]

theorem gatedCount_trace (r : Record) :
    gatedCount (past ++ [.trace r]) =
      gatedCount past + if gate true past = true then 0 else 1 := by
  rw [gatedCount, arrivals_trace, List.countP_append, ← gatedCount]
  by_cases hg : gate true past <;> simp [hg]

theorem oversizedCount_trace (r : Record) :
    oversizedCount (past ++ [.trace r]) =
      oversizedCount past + if gate true past = true ∧ ¬ r.Encodable then 1 else 0 := by
  rw [oversizedCount, arrivals_trace, List.countP_append, ← oversizedCount]
  by_cases hg : gate true past <;> by_cases hr : r.Encodable <;> simp [hg, hr]

end

end Message

namespace Logger

variable {σ η ξ : Type} [Storage σ η] [Exporter ξ σ]

theorem Serves.enabled_eq {l l' : Logger σ η ξ} {message : Message} {e : Event}
    {handled : Handled} (hs : l.Serves message e handled l') :
    l'.writer.enabled = Message.gate l.writer.enabled [message] := by
  cases hs with
  | gated | refused | switched | undelivered | delivered => rfl
  | offered he hr hw => exact hw.enabled_eq

/-- The gate of a log follows the messages that it drains. -/
theorem enabled_drain (l : Logger σ η ξ) (messages : List Message) :
    (l.drain messages).2.writer.enabled = Message.gate l.writer.enabled messages := by
  refine drain_induction (P := fun past _ _ now => now.writer.enabled =
    Message.gate l.writer.enabled past) ?_ rfl messages
  intro past s es now next message e handled hnow hp hm
  rw [(hp.serves hm).enabled_eq, Message.gate_append, hnow]

end Logger

/-- The counts of a drain that has kept these records of those offered. -/
structure Tallied (kept : List Record) (messages : List Message) (s : Summary) : Prop where
  written : s.written = kept.length
  bytesWritten : s.bytesWritten = totalSize kept
  disabled : s.disabled = Message.gatedCount messages
  unconfigured : s.unconfigured = 0
  unavailable : s.unavailable = 0
  capReached : s.capReached + kept.length = (Message.offeredRecords messages).length
  errors : s.errors = Message.oversizedCount messages
  commands : s.commands.map (fun c => (c.opcode, c.seq)) = messages.filterMap Message.command?

namespace Tallied

open Message

variable {kept : List Record} {past : List Message} {s : Summary} {r : Record}

theorem empty : Tallied [] [] .empty := ⟨rfl, rfl, rfl, rfl, rfl, rfl, rfl, rfl⟩

theorem gated (h : Tallied kept past s) (hg : gate true past = false) :
    Tallied kept (past ++ [.trace r]) (s.add (.trace (.ok .disabled))) where
  written := h.written
  bytesWritten := h.bytesWritten
  disabled := by simp [Summary.add, gatedCount_trace, hg, h.disabled]
  unconfigured := h.unconfigured
  unavailable := h.unavailable
  capReached := by simpa [Summary.add, offeredRecords_trace, hg] using h.capReached
  errors := by simp [Summary.add, oversizedCount_trace, hg, h.errors]
  commands := by simp [Summary.add, command?, h.commands]

theorem refused (h : Tallied kept past s) (hg : gate true past = true) (hr : ¬ r.Encodable)
    (e : LogError) : Tallied kept (past ++ [.trace r]) (s.add (.trace (.error e))) where
  written := h.written
  bytesWritten := h.bytesWritten
  disabled := by simp [Summary.add, gatedCount_trace, hg, h.disabled]
  unconfigured := h.unconfigured
  unavailable := h.unavailable
  capReached := by simpa [Summary.add, offeredRecords_trace, hr] using h.capReached
  errors := by simp [Summary.add, oversizedCount_trace, hg, hr, h.errors]
  commands := by simp [Summary.add, command?, h.commands]

theorem keep (h : Tallied kept past s) (hg : gate true past = true) (hr : r.Encodable) :
    Tallied (kept ++ [r]) (past ++ [.trace r]) (s.add (.trace (.ok (.written r.size)))) where
  written := by simp [Summary.add, h.written]
  bytesWritten := by simp [Summary.add, h.bytesWritten, totalSize_append, totalSize]
  disabled := by simp [Summary.add, gatedCount_trace, hg, h.disabled]
  unconfigured := h.unconfigured
  unavailable := h.unavailable
  capReached := by
    rw [offeredRecords_trace, if_pos ⟨hg, hr⟩, List.length_append, List.length_append,
      ← h.capReached, Nat.add_assoc]
    rfl
  errors := by simp [Summary.add, oversizedCount_trace, hr, h.errors]
  commands := by simp [Summary.add, command?, h.commands]

theorem drop (h : Tallied kept past s) (hg : gate true past = true) (hr : r.Encodable) :
    Tallied kept (past ++ [.trace r]) (s.add (.trace (.ok .capReached))) where
  written := h.written
  bytesWritten := h.bytesWritten
  disabled := by simp [Summary.add, gatedCount_trace, hg, h.disabled]
  unconfigured := h.unconfigured
  unavailable := h.unavailable
  capReached := by
    rw [offeredRecords_trace, if_pos ⟨hg, hr⟩, List.length_append, ← h.capReached]
    exact Nat.add_right_comm _ _ _
  errors := by simp [Summary.add, oversizedCount_trace, hr, h.errors]
  commands := by simp [Summary.add, command?, h.commands]

theorem command (h : Tallied kept past s) {message : Message} {opcode seq : UInt32}
    (hm : message.command? = some (opcode, seq)) (response : Response) :
    Tallied kept (past ++ [message]) (s.add (.command ⟨opcode, seq, response⟩)) where
  written := h.written
  bytesWritten := h.bytesWritten
  disabled := by
    rw [gatedCount, arrivals_command past hm]
    exact h.disabled
  unconfigured := h.unconfigured
  unavailable := h.unavailable
  capReached := by
    rw [offeredRecords_command past hm]
    exact h.capReached
  errors := by
    rw [oversizedCount, arrivals_command past hm]
    exact h.errors
  commands := by simp [Summary.add, hm, h.commands]

end Tallied

end TraceJournal
