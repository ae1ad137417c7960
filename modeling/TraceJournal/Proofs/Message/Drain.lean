import TraceJournal.Proofs.Log.Calls
import TraceJournal.Message.Drain
import Mathlib.Data.List.Induction

/-!
# Draining as a run

Handling a message is one call of the logger, and draining makes these calls one after the other and
counts what comes of them.
-/
namespace TraceJournal

namespace Message

def call : Message → Call
  | trace record => .log record
  | enableTrace _ _ enable => .enableTrace enable
  | dumpTrace _ _ => .dumpTrace

/-- What comes of a message, by the event of its call. A command is answered under its own opcode
and sequence number. -/
inductive Handles : Message → Event → Handled → Prop
  | trace {r : Record} {e : Event} {result : Except LogError Disposition} (hc : e.call = .log r)
      (ha : e.answer = .traced result) : Handles (.trace r) e (.trace result)
  | enableTrace {opcode seq : UInt32} {enable : Bool} {e : Event} {response : Response}
      (hc : e.call = .enableTrace enable) (ha : e.answer = .replied response) :
      Handles (.enableTrace opcode seq enable) e (.command ⟨opcode, seq, response⟩)
  | dumpTrace {opcode seq : UInt32} {e : Event} {response : Response} (hc : e.call = .dumpTrace)
      (ha : e.answer = .replied response) :
      Handles (.dumpTrace opcode seq) e (.command ⟨opcode, seq, response⟩)

end Message

namespace Logger

variable {σ η ξ : Type} [Storage σ η] [Exporter ξ σ]

theorem dispatch_spec (message : Message) (l : Logger σ η ξ) :
    message.Handles (l.event message.call) (l.dispatch message).1 ∧
      (l.dispatch message).2 = (l.perform message.call).2 := by
  cases message with
  | trace record => exact ⟨.trace rfl rfl, rfl⟩
  | enableTrace opcode seq enable => exact ⟨.enableTrace rfl rfl, rfl⟩
  | dumpTrace opcode seq => exact ⟨.dumpTrace rfl rfl, rfl⟩

theorem drain_snoc (messages : List Message) (message : Message) (l : Logger σ η ξ) :
    l.drain (messages ++ [message]) =
      ((l.drain messages).1.add ((l.drain messages).2.dispatch message).1,
        ((l.drain messages).2.dispatch message).2) := by
  rw [drain, List.foldl_append]
  rfl

/-- Draining leaves the logger as the calls of the messages do. -/
theorem drain_after (messages : List Message) (l : Logger σ η ξ) :
    (l.drain messages).2 = l.after (messages.map Message.call) := by
  induction messages using List.reverseRecOn with
  | nil => rfl
  | append_singleton messages message ih =>
    obtain ⟨-, hl⟩ := (l.drain messages).2.dispatch_spec message
    rw [drain_snoc, hl, ih, List.map_append, List.map_singleton, after_snoc]

/-- What a log does with a message: what takes place, what comes of it, and the log after it. -/
inductive Serves (l : Logger σ η ξ) : Message → Event → Handled → Logger σ η ξ → Prop
  | gated {r : Record} (he : l.writer.enabled = false) :
      Serves l (.trace r) (l.eventOf (.log r) (.traced (.ok .disabled)) [])
        (.trace (.ok .disabled)) l
  | refused {r : Record} (he : l.writer.enabled = true) (hr : ¬ r.Encodable) :
      Serves l (.trace r)
        (l.eventOf (.log r) (.traced (.error (.payloadTooLarge r.payload.length))) [])
        (.trace (.error (.payloadTooLarge r.payload.length))) l
  | offered {r : Record} {result : Except LogError Disposition} {requests : List Request}
      {w : Writer σ η} (he : l.writer.enabled = true) (hr : r.Encodable)
      (hw : l.writer.Writes r.wire result requests w) :
      Serves l (.trace r) (l.eventOf (.log r) (.traced result) requests) (.trace result)
        ⟨⟨r.wire ++ l.encoder.buffer.drop r.size⟩, w, l.exporter⟩
  | switched {opcode seq : UInt32} (enable : Bool) :
      Serves l (.enableTrace opcode seq enable)
        (l.eventOf (.enableTrace enable) (.replied .ok) []) (.command ⟨opcode, seq, .ok⟩)
        (l.setEnabled enable)
  | undelivered {opcode seq : UInt32} (hx : l.exporter = none) :
      Serves l (.dumpTrace opcode seq) (l.eventOf .dumpTrace (.replied .ok) [])
        (.command ⟨opcode, seq, .ok⟩) l
  | delivered {opcode seq : UInt32} {exporter exporter' : ξ} {result : Except IoError Unit}
      {medium : σ} (hx : l.exporter = some exporter)
      (hd : Exporter.deliver l.exportRequest exporter l.writer.medium =
        (result, exporter', medium)) :
      Serves l (.dumpTrace opcode seq) (l.eventOf .dumpTrace (.replied (delivery result)) [])
        (.command ⟨opcode, seq, delivery result⟩)
        { l with exporter := some exporter', writer := { l.writer with medium := medium } }

theorem Performs.serves {l l' : Logger σ η ξ} {message : Message} {e : Event} {handled : Handled}
    (hp : l.Performs e l') (hm : message.Handles e handled) : l.Serves message e handled l' := by
  cases hm with
  | trace hc ha =>
    cases hp with
    | chosen => cases ha
    | closed | switched | undelivered | delivered => cases hc
    | gated he =>
      cases hc
      cases ha
      exact .gated he
    | refused he hr =>
      cases hc
      cases ha
      exact .refused he hr
    | offered he hr hw =>
      cases hc
      cases ha
      exact .offered he hr hw
  | enableTrace hc ha =>
    cases hp with
    | chosen => cases ha
    | switched =>
      cases hc
      cases ha
      exact .switched _
    | closed | undelivered | delivered | gated | refused | offered => cases hc
  | dumpTrace hc ha =>
    cases hp with
    | chosen => cases ha
    | undelivered hx =>
      cases ha
      exact .undelivered hx
    | delivered hx hd =>
      cases ha
      exact .delivered hx hd
    | closed | switched | gated | refused | offered => cases hc

theorem dispatch_serves (message : Message) (l : Logger σ η ξ) :
    l.Serves message (l.event message.call) (l.dispatch message).1 (l.dispatch message).2 := by
  obtain ⟨hm, hl⟩ := l.dispatch_spec message
  rw [hl]
  exact (l.perform_spec message.call).serves hm

/-- What holds of a log, of the messages handled so far, of their counts and of the events, if
each message keeps it. -/
theorem drain_induction {P : List Message → Summary → List Event → Logger σ η ξ → Prop}
    (step : ∀ {past : List Message} {s : Summary} {es : List Event} {l l' : Logger σ η ξ}
      {message : Message} {e : Event} {handled : Handled}, P past s es l → l.Performs e l' →
      message.Handles e handled → P (past ++ [message]) (s.add handled) (es ++ [e]) l')
    {l : Logger σ η ξ} (start : P [] .empty [] l) (messages : List Message) :
    P messages (l.drain messages).1 (l.events (messages.map Message.call))
      (l.drain messages).2 := by
  induction messages using List.reverseRecOn with
  | nil => exact start
  | append_singleton messages message ih =>
    obtain ⟨hhandled, hl⟩ := (l.drain messages).2.dispatch_spec message
    have hp := (l.drain messages).2.perform_spec message.call
    rw [List.map_append, List.map_singleton, events_snoc, ← drain_after, drain_snoc, hl]
    exact step ih hp hhandled

end Logger

end TraceJournal
