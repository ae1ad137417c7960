import TraceJournal.Proofs.Log.Latches
import TraceJournal.Proofs.Message.Arrivals
import TraceJournal.Proofs.Message.Drain
import TraceJournal.Proofs.Storage.Laws

/-!
# Draining keeps the longest prefix that fits

On a medium that does not fail, a log that has been given a file drains any messages like this: of
the records that arrive while the gate is open and can be encoded it keeps the longest prefix that
fits the budget, and counts all others by what kept them out.
-/
namespace TraceJournal

/-- What becomes of one more record that is offered. -/
inductive Kept (budget : Nat) (offered : List Record) (r : Record) :
    Except LogError Disposition → List Request → Prop
  | kept (h : fitting budget (offered ++ [r]) = fitting budget offered ++ [r]) :
      Kept budget offered r (.ok (.written r.size)) [.append r.wire]
  | dropped (h : fitting budget (offered ++ [r]) = fitting budget offered) :
      Kept budget offered r (.ok .capReached) []

section

variable {σ η : Type} [Storage σ η] {path : String} {budget : UInt32} {ready : σ → Prop}
  {usable : η → σ → Prop} {content : η → σ → List UInt8}

/-- A writer whose file holds what fits of the records offered. -/
structure OpenOn (path : String) (budget : UInt32) (usable : η → σ → Prop)
    (content : η → σ → List UInt8) (file : η) (w : Writer σ η) (offered : List Record) : Prop where
  fileName : w.fileName = some path
  fault : w.fault = none
  maxSize : w.maxSize = budget
  file_eq : w.file = some file
  usable : usable file w.medium
  content_eq : content file w.medium = (fitting budget.toNat offered).flatMap Record.wire
  byteCount : w.byteCount.toNat = totalSize (fitting budget.toNat offered)
  full_iff : w.full = true ↔ fitting budget.toNat offered ≠ offered

/-- A writer that has been offered these records. Its file is created for the first of them. -/
inductive Holding (path : String) (budget : UInt32) (ready : σ → Prop) (usable : η → σ → Prop)
    (content : η → σ → List UInt8) (w : Writer σ η) : List Record → Prop
  | fresh (hn : w.fileName = some path) (hq : w.fault = none) (hm : w.maxSize = budget)
      (hf : w.file = none) (hr : ready w.medium) (hc : w.byteCount = 0) :
      Holding path budget ready usable content w []
  | opened {file : η} {offered : List Record} (hne : offered ≠ [])
      (h : OpenOn path budget usable content file w offered) :
      Holding path budget ready usable content w offered

variable {w after : Writer σ η} {offered : List Record} {r : Record} {file : η} {name : String}
  {result : Except LogError Disposition} {requests : List Request}

omit [Storage σ η] in
theorem Holding.mode_iff (h : Holding path budget ready usable content w offered) :
    w.mode = .opened ↔ offered ≠ [] := by
  cases h with
  | fresh hn hq hm hf => simp [Writer.mode, hf]
  | opened hne h => simp [Writer.mode, h.file_eq, hne]

omit [Storage σ η] in
theorem Holding.content_eq (h : Holding path budget ready usable content w offered)
    (hf : w.file = some file) :
    content file w.medium = (fitting budget.toNat offered).flatMap Record.wire := by
  cases h with
  | fresh hn hq hm hf' => simp [hf'] at hf
  | opened hne h =>
    have hsame := h.file_eq
    rw [hf, Option.some.injEq] at hsame
    rw [hsame]
    exact h.content_eq

omit [Storage σ η] in
theorem Holding.byteCount_eq (h : Holding path budget ready usable content w offered) :
    w.byteCount.toNat = totalSize (fitting budget.toNat offered) := by
  cases h with
  | fresh hn hq hm hf hr hc =>
    rw [hc]
    rfl
  | opened hne h => exact h.byteCount

omit [Storage σ η] in
/-- Neither the gate nor what an exporter does to the medium matters. -/
theorem Holding.setMedium (h : Holding path budget ready usable content w offered) {medium : σ}
    (enabled : Bool) (hready : ready w.medium → ready medium)
    (husable : ∀ {file : η}, usable file w.medium → usable file medium)
    (hcontent : ∀ file, content file medium = content file w.medium) :
    Holding path budget ready usable content { w with medium, enabled } offered := by
  cases h with
  | fresh hn hq hm hf hr hc => exact .fresh hn hq hm hf (hready hr) hc
  | @opened file _ hne h =>
    exact .opened hne { h with
      usable := husable h.usable
      content_eq := (hcontent file).trans h.content_eq }

theorem OpenOn.append (hrel : Reliable path ready usable content)
    (h : OpenOn path budget usable content file w offered)
    (ha : w.Appends name r.wire file result requests after) :
    OpenOn path budget usable content file after (offered ++ [r]) ∧
      Kept budget.toNat offered r result requests := by
  have hcount := h.byteCount
  have hmax := congrArg UInt32.toNat h.maxSize
  cases ha with
  | capped hcap =>
    rw [h.full_iff, hmax, hcount, Record.length_wire] at hcap
    obtain ⟨hdrop, hne⟩ := fitting_snoc_of_left_out hcap
    refine ⟨{ h with content_eq := ?_, byteCount := ?_, full_iff := ?_ }, .dropped hdrop⟩
    · rw [hdrop]
      exact h.content_eq
    · rw [hdrop]
      exact hcount
    · exact iff_of_true rfl hne
  | @written medium count hfull hfit hw hn =>
    obtain ⟨m', hw', husable, hcontent⟩ := hrel.writeAll r.wire h.usable
    rw [hw'] at hw
    cases hw
    have hall : fitting budget.toNat offered = offered := by
      by_cases hall : fitting budget.toNat offered = offered
      · exact hall
      · simp [h.full_iff.2 hall] at hfull
    rw [hcount, hmax, hall, Record.length_wire] at hfit
    rw [hcount, hall, Record.length_wire] at hn
    have hkeep := fitting_snoc_of_fits hall hfit
    rw [Record.length_wire]
    refine ⟨{ h with usable := husable, content_eq := ?_, byteCount := ?_, full_iff := ?_ },
      .kept (by rw [hkeep, hall])⟩
    · rw [hcontent, h.content_eq, hkeep, hall, List.flatMap_append]
      simp
    · rw [hn, hkeep, totalSize_append]
      rfl
    · rw [hfull, hkeep]
      simp
  | failed hfull hfit hw =>
    obtain ⟨m', hw', -⟩ := hrel.writeAll r.wire h.usable
    rw [hw'] at hw
    cases hw

theorem Holding.writes (hrel : Reliable path ready usable content)
    (h : Holding path budget ready usable content w offered) (he : w.enabled = true)
    (hw : w.Writes r.wire result requests after) :
    Holding path budget ready usable content after (offered ++ [r]) ∧
      ∃ rest, Kept budget.toNat offered r result rest ∧
        requests = (if offered = [] then [.create path] else []) ++ rest := by
  cases hw with
  | disabled he' => simp [he] at he'
  | unconfigured _ hn =>
    cases h with
    | fresh hn' => simp [hn'] at hn
    | opened _ h => simp [h.fileName] at hn
  | unavailable _ _ hq =>
    cases h with
    | fresh _ hq' => simp [hq'] at hq
    | opened _ h => simp [h.fault] at hq
  | openFailed _ hn _ hf hc =>
    cases h with
    | fresh hn' _ _ _ hready =>
      obtain ⟨file, m', hc', -⟩ := hrel.create hready
      rw [hn', Option.some.injEq] at hn
      rw [← hn, hc'] at hc
      cases hc
    | opened _ h => simp [h.file_eq] at hf
  | @opened name file medium _ requests _ _ hn hq hf hc ha =>
    cases h with
    | fresh hn' _ hm _ hready _ =>
      obtain ⟨file', m', hc', husable, hcontent⟩ := hrel.create hready
      rw [hn', Option.some.injEq] at hn
      rw [← hn, hc'] at hc
      cases hc
      have hopen : OpenOn path budget usable content file
          { w with medium := medium, file := some file, byteCount := 0, full := false } [] :=
        ⟨hn', hq, hm, rfl, husable, hcontent, rfl, by simp [fitting]⟩
      obtain ⟨hafter, hkept⟩ := hopen.append hrel ha
      exact ⟨.opened (by simp) hafter, requests, hkept, by simp [hn]⟩
    | opened _ h => simp [h.file_eq] at hf
  | @held name file _ _ _ _ hn hq hf ha =>
    cases h with
    | fresh _ _ _ hf' => simp [hf'] at hf
    | opened hne h =>
      have hsame := h.file_eq
      rw [hf, Option.some.injEq] at hsame
      subst hsame
      obtain ⟨hafter, hkept⟩ := h.append hrel ha
      exact ⟨.opened (by simp) hafter, requests, hkept, by simp [hne]⟩

/-- What is asked of the medium when these records have been kept of those offered. -/
def askedFor (path : String) (offered kept : List Record) : List Request :=
  if offered = [] then [] else .create path :: kept.map fun r => .append r.wire

theorem Kept.askedFor_snoc {budget : Nat} {offered : List Record} {r : Record}
    {result : Except LogError Disposition} {rest : List Request} (path : String)
    (h : Kept budget offered r result rest) :
    askedFor path (offered ++ [r]) (fitting budget (offered ++ [r])) =
      askedFor path offered (fitting budget offered) ++
        ((if offered = [] then [.create path] else []) ++ rest) := by
  cases h with
  | kept h =>
    rw [h]
    by_cases ho : offered = [] <;> simp [askedFor, ho, fitting]
  | dropped h =>
    rw [h]
    by_cases ho : offered = [] <;> simp [askedFor, ho, fitting]

/-- A log that is draining messages: its gate follows them, it holds what it has to, and the counts
and requests are those of what it holds. -/
structure Draining {ξ : Type} (path : String) (budget : UInt32) (ready : σ → Prop)
    (usable : η → σ → Prop) (content : η → σ → List UInt8) (past : List Message) (s : Summary)
    (es : List Event) (l : Logger σ η ξ) : Prop where
  gate : l.writer.enabled = Message.gate true past
  holding : Holding path budget ready usable content l.writer (Message.offeredRecords past)
  requests : es.flatMap Event.requests = askedFor path (Message.offeredRecords past)
    (fitting budget.toNat (Message.offeredRecords past))
  tallied : Tallied (fitting budget.toNat (Message.offeredRecords past)) past s

namespace Draining

open Message

variable {ξ : Type} {past : List Message} {s s' : Summary} {es : List Event} {l l' : Logger σ η ξ}
  {message : Message} {e : Event} {handled : Handled}

omit [Storage σ η] in
theorem start {l : Logger σ η ξ} (he : l.writer.enabled = true)
    (h : Holding path budget ready usable content l.writer []) :
    Draining path budget ready usable content [] .empty [] l :=
  ⟨he, h, rfl, .empty⟩

omit [Storage σ η] in
theorem unoffered (h : Draining path budget ready usable content past s es l)
    (ho : offeredRecords (past ++ [message]) = offeredRecords past)
    (hg : l'.writer.enabled = Message.gate true (past ++ [message])) (hr : e.requests = [])
    (hw : Holding path budget ready usable content l'.writer (offeredRecords past))
    (ht : Tallied (fitting budget.toNat (offeredRecords past)) (past ++ [message]) s') :
    Draining path budget ready usable content (past ++ [message]) s' (es ++ [e]) l' where
  gate := hg
  holding := by
    rw [ho]
    exact hw
  requests := by
    rw [ho, List.flatMap_append, h.requests]
    simp [hr]
  tallied := by
    rw [ho]
    exact ht

theorem offer (hrel : Reliable path ready usable content)
    (h : Draining path budget ready usable content past s es l) (he : l.writer.enabled = true)
    (hr : r.Encodable) (hw : l.writer.Writes r.wire result e.requests l'.writer) :
    Draining path budget ready usable content (past ++ [.trace r]) (s.add (.trace result))
      (es ++ [e]) l' := by
  have hopen : Message.gate true past = true := h.gate.symm.trans he
  have ho : offeredRecords (past ++ [.trace r]) = offeredRecords past ++ [r] := by
    rw [offeredRecords_trace, if_pos ⟨hopen, hr⟩]
  obtain ⟨hholding, rest, hkept, hrequests⟩ := h.holding.writes hrel he hw
  constructor
  · rw [gate_trace, hw.enabled_eq, h.gate]
  · rw [ho]
    exact hholding
  · rw [ho, hkept.askedFor_snoc, List.flatMap_append, h.requests, ← hrequests]
    simp
  · rw [ho]
    cases hkept with
    | kept hfit =>
      rw [hfit]
      exact h.tallied.keep hopen hr
    | dropped hfit =>
      rw [hfit]
      exact h.tallied.drop hopen hr

variable [Exporter ξ σ]

/-- An exporter has to be harmless only if there is one. -/
theorem step_of (hrel : Reliable path ready usable content)
    (hx : ∀ exporter, l.exporter = some exporter → Harmless ξ ready usable content)
    (h : Draining path budget ready usable content past s es l) (hp : l.Performs e l')
    (hh : message.Handles e handled) :
    Draining path budget ready usable content (past ++ [message]) (s.add handled) (es ++ [e])
      l' := by
  have hs := hp.serves hh
  have hg : l'.writer.enabled = Message.gate true (past ++ [message]) := by
    rw [gate_append, ← h.gate]
    exact hs.enabled_eq
  cases hs with
  | @gated r he =>
    have hshut : Message.gate true past = false := h.gate.symm.trans he
    have ho : offeredRecords (past ++ [.trace r]) = offeredRecords past := by
      simp [offeredRecords_trace, hshut]
    exact h.unoffered ho hg rfl h.holding (h.tallied.gated hshut)
  | @refused r he hr =>
    have hopen : Message.gate true past = true := h.gate.symm.trans he
    have ho : offeredRecords (past ++ [.trace r]) = offeredRecords past := by
      simp [offeredRecords_trace, hr]
    exact h.unoffered ho hg rfl h.holding (h.tallied.refused hopen hr _)
  | offered he hr hw => exact h.offer hrel he hr hw
  | switched enable =>
    exact h.unoffered (offeredRecords_command past rfl) hg rfl
      (h.holding.setMedium enable id id fun _ => rfl) (h.tallied.command rfl _)
  | undelivered =>
    exact h.unoffered (offeredRecords_command past rfl) hg rfl h.holding (h.tallied.command rfl _)
  | @delivered _ _ exporter exporter' result medium hexp hd =>
    have hmedium : (Exporter.deliver l.exportRequest exporter l.writer.medium).2.2 = medium := by
      rw [hd]
    subst hmedium
    have hharmless := hx exporter hexp
    have hheld := h.holding.setMedium l.writer.enabled hharmless.ready hharmless.usable
      (hharmless.sparing l.exportRequest exporter l.writer.medium)
    exact h.unoffered (offeredRecords_command past rfl) hg rfl hheld (h.tallied.command rfl _)

theorem step (hrel : Reliable path ready usable content) (hx : Harmless ξ ready usable content)
    (h : Draining path budget ready usable content past s es l) (hp : l.Performs e l')
    (hh : message.Handles e handled) :
    Draining path budget ready usable content (past ++ [message]) (s.add handled) (es ++ [e])
      l' :=
  h.step_of hrel (fun _ _ => hx) hp hh

end Draining

omit [Storage σ η] in
theorem setLogFile_new {ξ : Type} (medium : σ) (exporter : Option ξ) (budget : UInt32)
    (hpath : 1 ≤ path.utf8ByteSize ∧ path.utf8ByteSize ≤ maxNameLength) (hm : ready medium) :
    let start : Logger σ η ξ := (Logger.new medium).setExporter exporter
    (start.setLogFile path budget).1 = .ok () ∧
      Draining path budget ready usable content [] .empty [] (start.setLogFile path budget).2 := by
  intro start
  have hspec := Writer.setLogFile_spec path budget start.writer
  have hfault := Writer.nameFault?_eq_none_iff.2 hpath
  change (start.writer.setLogFile path budget).1 = _ ∧ Draining path budget ready usable content
    _ _ _ { start with writer := (start.writer.setLogFile path budget).2 }
  generalize start.writer.setLogFile path budget = chosen at hspec ⊢
  rcases chosen with ⟨result, w⟩
  dsimp only at hspec ⊢
  cases hspec with
  | alreadyOpen hf => cases hf
  | refused _ he => simp [hfault] at he
  | accepted => exact ⟨rfl, .start rfl (.fresh rfl rfl rfl rfl hm rfl)⟩

end

/-- On a medium that does not fail, a new log that is given a name that can be used creates its file
exactly if a record is offered to it, and keeps the longest prefix of the records offered that fits
its budget. Its counts say so, and tell apart what kept the other records out. -/
theorem drain_keeps_longest_fitting {σ η ξ : Type} [Storage σ η] [Exporter ξ σ] {path : String}
    {ready : σ → Prop} {usable : η → σ → Prop} {content : η → σ → List UInt8}
    (hrel : Reliable path ready usable content) (hx : Harmless ξ ready usable content)
    (hpath : 1 ≤ path.utf8ByteSize ∧ path.utf8ByteSize ≤ maxNameLength) {medium : σ}
    (hm : ready medium) (exporter : Option ξ) (budget : UInt32) (messages : List Message) :
    let start : Logger σ η ξ := (Logger.new medium).setExporter exporter
    let chosen := start.setLogFile path budget
    let drained := chosen.2.drain messages
    let offered := Message.offeredRecords messages
    chosen.1 = .ok () ∧ ∃ kept, LongestFitting budget.toNat kept offered ∧
      (chosen.2.events (messages.map Message.call)).flatMap Event.requests =
        askedFor path offered kept ∧
      (drained.2.writer.mode = .opened ↔ offered ≠ []) ∧
      (∀ file, drained.2.writer.file = some file →
        content file drained.2.writer.medium = kept.flatMap Record.wire) ∧
      drained.2.writer.byteCount.toNat = totalSize kept ∧
      Tallied kept messages drained.1 := by
  intro start chosen drained offered
  obtain ⟨hok, hstart⟩ := setLogFile_new (η := η) medium exporter budget hpath hm
  have h := Logger.drain_induction (fun h hp hh => Draining.step hrel hx h hp hh) hstart messages
  exact ⟨hok, _, fitting_longest _ _, h.requests, h.holding.mode_iff,
    fun file hf => h.holding.content_eq hf, h.holding.byteCount_eq, h.tallied⟩

def shortLog : Logger Memory String (List ExportRequest) :=
  (((Logger.new Memory.empty).setExporter (some [])).setLogFile "trace.bin" 20).2

/-- There, one record arrives while the gate is shut and one does not fit. -/
theorem drain_shortLog :
    let messages : List Message := [.trace default, .enableTrace 0 1 false, .trace default,
      .enableTrace 0 2 true, .dumpTrace 1 3, .trace default]
    ∃ kept, LongestFitting (20 : UInt32).toNat kept (Message.offeredRecords messages) ∧
      (∀ file, (shortLog.drain messages).2.writer.file = some file →
        (shortLog.drain messages).2.writer.medium.content file = kept.flatMap Record.wire) ∧
      Tallied kept messages (shortLog.drain messages).1 := by
  intro messages
  have hsound : Memory.empty.Sound := ⟨rfl, rfl, rfl, by decide⟩
  obtain ⟨-, kept, hlongest, -, -, hcontent, -, htallied⟩ :=
    drain_keeps_longest_fitting (Memory.reliable "trace.bin")
      (harmless_notes Memory.Sound (fun _ => Memory.Sound) fun name m => m.content name)
      (by decide) hsound (some []) 20 messages
  exact ⟨kept, hlongest, hcontent, htallied⟩

end TraceJournal
