import TraceJournal.Proofs.Log.Rules
import TraceJournal.Proofs.Record.Encoding

/-!
# Calls of a logger

What can be asked of a logger, and what takes place when it is asked: the answer, and the requests
that the call makes of the medium. A run is the list of its events.
-/
namespace TraceJournal

inductive Call where
  | setLogFile (name : String) (maxSize : UInt32)
  | configure (name : String)
  | closeFile
  | enableTrace (enable : Bool)
  | dumpTrace
  | log (record : Record)
deriving DecidableEq, Repr

def Call.choice? : Call → Option (String × UInt32)
  | setLogFile name maxSize => some (name, maxSize)
  | configure name => some (name, defaultMaxSize)
  | _ => none

inductive Answer where
  | settled (result : Except LogError Unit)
  | replied (response : Response)
  | traced (result : Except LogError Disposition)

def Answer.rejected : Answer → Bool
  | settled (.error .missingName) | settled (.error (.nameTooLong _)) => true
  | _ => false

/-- Whether a record was answered by a failure of the medium. -/
def Answer.failed : Answer → Bool
  | traced (.error (.openFailed _ _)) | traced (.error (.writeFailed _ _)) => true
  | _ => false

/-- A call that took place: whether the gate and the file were open before it, what it answered,
and what it requested of the medium. -/
structure Event where
  call : Call
  enabled : Bool
  mode : Mode
  answer : Answer
  requests : List Request

namespace Event

def configured? (e : Event) : Option String :=
  match e.call.choice?, e.answer with
  | some (name, _), .settled (.ok ()) => some name
  | _, _ => none

def offered? (e : Event) : Option Record :=
  match e.call with
  | .log r => if e.enabled = true ∧ r.Encodable then some r else none
  | _ => none

def written? (e : Event) : Option Record :=
  match e.call, e.answer with
  | .log r, .traced (.ok (.written _)) => some r
  | _, _ => none

def torn? (e : Event) : Option Record :=
  match e.call, e.answer with
  | .log r, .traced (.error (.writeFailed _ _)) => some r
  | _, _ => none

def created (e : Event) : List String := e.requests.filterMap Request.path?

def failed (e : Event) : Bool := e.answer.failed

/-- A call that neither created a file nor appended to one. -/
def Quiet (e : Event) : Prop := ∀ request ∈ e.requests, request = .flush

/-- A call that left the log without a file name: it closed the open file, or it chose a name that
cannot be used. -/
def forgets (e : Event) : Bool :=
  (e.call = .closeFile ∧ e.mode = .opened) || e.answer.rejected

end Event

theorem Record.length_wire_lt {r : Record} (hr : r.Encodable) : r.wire.length < Writer.sliceLimit := by
  rw [Record.length_wire]
  exact Nat.lt_of_le_of_lt (Record.size_le_of_encodable hr) (by decide)

namespace Logger

variable {σ η ξ : Type}

/-- The logger over a medium that has recorded these requests. -/
def recording (requests : List Request) (l : Logger σ η ξ) : Logger (Recorded σ) η ξ :=
  ⟨l.encoder, l.writer.recording requests, l.exporter⟩

/-- The event of a call that this logger answers so. -/
def eventOf (call : Call) (answer : Answer) (requests : List Request) (l : Logger σ η ξ) : Event :=
  ⟨call, l.writer.enabled, l.writer.mode, answer, requests⟩

section

variable (call : Call) (answer : Answer) (requests : List Request) (l : Logger σ η ξ)

@[simp] theorem eventOf_call : (l.eventOf call answer requests).call = call := rfl

@[simp] theorem eventOf_enabled :
    (l.eventOf call answer requests).enabled = l.writer.enabled := rfl

@[simp] theorem eventOf_mode : (l.eventOf call answer requests).mode = l.writer.mode := rfl

@[simp] theorem eventOf_answer : (l.eventOf call answer requests).answer = answer := rfl

@[simp] theorem eventOf_requests : (l.eventOf call answer requests).requests = requests := rfl

end

variable [Storage σ η] [Exporter ξ σ]

def perform (call : Call) (l : Logger σ η ξ) : Answer × Logger σ η ξ :=
  match call with
  | .setLogFile name maxSize =>
    let (result, l) := l.setLogFile name maxSize
    (.settled result, l)
  | .configure name =>
    let (result, l) := l.configure name
    (.settled result, l)
  | .closeFile =>
    let (result, l) := l.closeFile
    (.settled result, l)
  | .enableTrace enable =>
    let (response, l) := l.enableTrace enable
    (.replied response, l)
  | .dumpTrace =>
    let (response, l) := l.dumpTrace
    (.replied response, l)
  | .log record =>
    let (result, l) := l.log record
    (.traced result, l)

/-- The requests that a call makes of the medium. What an exporter does is not among them. -/
def requests (call : Call) (l : Logger σ η ξ) : List Request :=
  ((l.recording []).perform call).2.writer.medium.requests

def event (call : Call) (l : Logger σ η ξ) : Event :=
  l.eventOf call (l.perform call).1 (l.requests call)

def after (calls : List Call) (l : Logger σ η ξ) : Logger σ η ξ :=
  calls.foldl (fun l call => (l.perform call).2) l

def events (calls : List Call) (l : Logger σ η ξ) : List Event :=
  match calls with
  | [] => []
  | call :: calls => l.event call :: (l.perform call).2.events calls

@[simp] theorem after_nil (l : Logger σ η ξ) : l.after [] = l := rfl

@[simp] theorem after_cons (call : Call) (calls : List Call) (l : Logger σ η ξ) :
    l.after (call :: calls) = (l.perform call).2.after calls := rfl

theorem after_snoc (calls : List Call) (call : Call) (l : Logger σ η ξ) :
    l.after (calls ++ [call]) = ((l.after calls).perform call).2 := by
  rw [after, List.foldl_append]
  rfl

theorem events_append (calls more : List Call) (l : Logger σ η ξ) :
    l.events (calls ++ more) = l.events calls ++ (l.after calls).events more := by
  induction calls generalizing l with
  | nil => rfl
  | cons first calls ih => rw [List.cons_append, events, ih, events, after_cons, List.cons_append]

theorem events_snoc (calls : List Call) (call : Call) (l : Logger σ η ξ) :
    l.events (calls ++ [call]) = l.events calls ++ [(l.after calls).event call] :=
  events_append calls [call] l

theorem map_call_events (calls : List Call) (l : Logger σ η ξ) :
    (l.events calls).map Event.call = calls := by
  induction calls generalizing l with
  | nil => rfl
  | cons first calls ih => rw [events, List.map_cons, ih]; rfl

theorem events_eq_append_cons {l : Logger σ η ξ} {calls : List Call} {earlier later : List Event}
    {e : Event} (h : l.events calls = earlier ++ e :: later) :
    ∃ before call rest, calls = before ++ call :: rest ∧ l.events before = earlier ∧
      (l.after before).event call = e ∧
      ((l.after before).perform call).2.events rest = later := by
  induction calls generalizing l earlier with
  | nil => simp [events] at h
  | cons call calls ih =>
    rw [events] at h
    cases earlier with
    | nil =>
      rw [List.nil_append, List.cons.injEq] at h
      exact ⟨[], call, calls, rfl, rfl, h⟩
    | cons first earlier =>
      rw [List.cons_append, List.cons.injEq] at h
      obtain ⟨before, next, rest, rfl, hb, he, hl⟩ := ih h.2
      exact ⟨call :: before, next, rest, rfl, by rw [events, hb, h.1], he, hl⟩

def delivery : Except IoError Unit → Response
  | .ok () => .ok
  | .error _ => .executionError

omit [Storage σ η] in
theorem dumpTrace_of_deliver {l : Logger σ η ξ} {exporter exporter' : ξ}
    {result : Except IoError Unit} {medium : σ} (hx : l.exporter = some exporter)
    (hd : Exporter.deliver l.exportRequest exporter l.writer.medium =
      (result, exporter', medium)) :
    l.dumpTrace = (delivery result,
      { l with exporter := some exporter', writer := { l.writer with medium := medium } }) := by
  cases result <;> simp [dumpTrace, delivery, hx, hd]

/-- What takes place at a call, and the logger after it. -/
inductive Performs (l : Logger σ η ξ) : Event → Logger σ η ξ → Prop
  | chosen {call : Call} {name : String} {maxSize : UInt32} {result : Except LogError Unit}
      {w : Writer σ η} (hc : call.choice? = some (name, maxSize))
      (hw : l.writer.Configures name maxSize result w) :
      Performs l (l.eventOf call (.settled result) []) { l with writer := w }
  | closed {result : Except LogError Unit} {requests : List Request} {w : Writer σ η}
      (hw : l.writer.Closes result requests w) :
      Performs l (l.eventOf .closeFile (.settled result) requests) { l with writer := w }
  | switched (enable : Bool) :
      Performs l (l.eventOf (.enableTrace enable) (.replied .ok) []) (l.setEnabled enable)
  | undelivered (hx : l.exporter = none) :
      Performs l (l.eventOf .dumpTrace (.replied .ok) []) l
  | delivered {exporter exporter' : ξ} {result : Except IoError Unit} {medium : σ}
      (hx : l.exporter = some exporter)
      (hd : Exporter.deliver l.exportRequest exporter l.writer.medium =
        (result, exporter', medium)) :
      Performs l (l.eventOf .dumpTrace (.replied (delivery result)) [])
        { l with exporter := some exporter', writer := { l.writer with medium := medium } }
  | gated {r : Record} (he : l.writer.enabled = false) :
      Performs l (l.eventOf (.log r) (.traced (.ok .disabled)) []) l
  | refused {r : Record} (he : l.writer.enabled = true) (hr : ¬ r.Encodable) :
      Performs l
        (l.eventOf (.log r) (.traced (.error (.payloadTooLarge r.payload.length))) []) l
  | offered {r : Record} {result : Except LogError Disposition} {requests : List Request}
      {w : Writer σ η} (he : l.writer.enabled = true) (hr : r.Encodable)
      (hw : l.writer.Writes r.wire result requests w) :
      Performs l (l.eventOf (.log r) (.traced result) requests)
        ⟨⟨r.wire ++ l.encoder.buffer.drop r.size⟩, w, l.exporter⟩

/-- A call does what the rules allow, and recording its requests changes nothing about it. -/
def Ruled (call : Call) (l : Logger σ η ξ) : Prop :=
  ∃ requests, l.Performs (l.eventOf call (l.perform call).1 requests) (l.perform call).2 ∧
    ∀ r, (l.recording r).perform call =
      ((l.perform call).1, (l.perform call).2.recording (r ++ requests))

theorem ruled_dumpTrace (l : Logger σ η ξ) : l.Ruled .dumpTrace := by
  refine ⟨[], ?_⟩
  cases hx : l.exporter with
  | none =>
    have hp : l.perform .dumpTrace = (.replied .ok, l) := by simp [perform, dumpTrace, hx]
    rw [hp]
    exact ⟨.undelivered hx, fun r => by simp [perform, dumpTrace, recording, hx]⟩
  | some exporter =>
    rcases hd : Exporter.deliver l.exportRequest exporter l.writer.medium with
      ⟨result, exporter', medium⟩
    rw [perform, dumpTrace_of_deliver hx hd]
    refine ⟨.delivered hx hd, fun r => ?_⟩
    have hdr : Exporter.deliver (l.recording r).exportRequest exporter
        (l.recording r).writer.medium = (result, exporter', (⟨medium, r⟩ : Recorded σ)) := by
      have hm : (l.recording r).writer.medium = ⟨l.writer.medium, r⟩ := rfl
      have hq : (l.recording r).exportRequest = l.exportRequest := rfl
      rw [hm, hq, deliver_recorded, hd]
    rw [perform, dumpTrace_of_deliver (l := l.recording r) hx hdr, List.append_nil]
    rfl

theorem perform_log {l : Logger σ η ξ} {r : Record} (he : l.writer.enabled = true)
    (hr : r.Encodable) :
    l.perform (.log r) = (.traced (l.writer.write r.wire).1,
      ⟨⟨r.wire ++ l.encoder.buffer.drop r.size⟩, (l.writer.write r.wire).2, l.exporter⟩) := by
  simp [perform, log, he, Encoder.encode_of_encodable hr]

theorem perform_log_gated {l : Logger σ η ξ} {r : Record} (he : l.writer.enabled = false) :
    l.perform (.log r) = (.traced (.ok .disabled), l) := by
  simp [perform, log, he]

theorem perform_log_refused {l : Logger σ η ξ} {r : Record} (he : l.writer.enabled = true)
    (hr : ¬ r.Encodable) :
    l.perform (.log r) = (.traced (.error (.payloadTooLarge r.payload.length)), l) := by
  simp [perform, log, he, Encoder.encode_of_not_encodable hr]

theorem ruled_log (record : Record) (l : Logger σ η ξ) : l.Ruled (.log record) := by
  cases he : l.writer.enabled with
  | false =>
    refine ⟨[], ?_⟩
    rw [perform_log_gated he]
    refine ⟨.gated he, fun r => ?_⟩
    rw [perform_log_gated (l := l.recording r) he, List.append_nil]
  | true =>
    by_cases hr : record.Encodable
    · obtain ⟨requests, hw, hwr⟩ := Writer.write_spec (Record.length_wire_lt hr) l.writer
      refine ⟨requests, ?_⟩
      rw [perform_log he hr]
      refine ⟨.offered he hr hw, fun r => ?_⟩
      have hwriter : (l.recording r).writer = l.writer.recording r := rfl
      rw [perform_log (l := l.recording r) he hr, hwriter, hwr]
      rfl
    · refine ⟨[], ?_⟩
      rw [perform_log_refused he hr]
      refine ⟨.refused he hr, fun r => ?_⟩
      rw [perform_log_refused (l := l.recording r) he hr, List.append_nil]

theorem ruled (call : Call) (l : Logger σ η ξ) : l.Ruled call := by
  cases call with
  | setLogFile name maxSize =>
    refine ⟨[], .chosen rfl (Writer.setLogFile_spec name maxSize l.writer), fun r => ?_⟩
    rw [List.append_nil, perform, setLogFile, recording, Writer.setLogFile_recording]
    rfl
  | configure name =>
    refine ⟨[], .chosen rfl (Writer.setLogFile_spec name defaultMaxSize l.writer), fun r => ?_⟩
    rw [List.append_nil, perform, configure, setLogFile, recording, Writer.setLogFile_recording]
    rfl
  | closeFile =>
    obtain ⟨requests, hw, hr⟩ := Writer.close_spec l.writer
    refine ⟨requests, .closed hw, fun r => ?_⟩
    rw [perform, closeFile, recording, hr]
    rfl
  | enableTrace enable =>
    refine ⟨[], .switched enable, fun r => ?_⟩
    rw [List.append_nil]
    rfl
  | dumpTrace => exact ruled_dumpTrace l
  | log record => exact ruled_log record l

theorem perform_spec (call : Call) (l : Logger σ η ξ) :
    l.Performs (l.event call) (l.perform call).2 := by
  obtain ⟨requests, hp, hr⟩ := l.ruled call
  have hq : l.requests call = requests := by
    rw [Logger.requests, hr]
    rfl
  rw [event, hq]
  exact hp

/-- What holds of a log and of all that has led to it, if each call that meets a condition keeps
it. -/
theorem history_induction {P : Logger σ η ξ → List Event → Prop} {R : Event → Prop}
    (step : ∀ {l e l' past}, P l past → l.Performs e l' → R e → P l' (past ++ [e]))
    {l : Logger σ η ξ} {past : List Event} {calls : List Call} (hl : P l past)
    (hr : ∀ e ∈ l.events calls, R e) : P (l.after calls) (past ++ l.events calls) := by
  induction calls generalizing l past with
  | nil =>
    rw [events, List.append_nil]
    exact hl
  | cons call calls ih =>
    rw [events, List.forall_mem_cons] at hr
    have hnext := ih (step hl (l.perform_spec call) hr.1) hr.2
    rwa [List.append_assoc, List.singleton_append] at hnext

/-- What holds at every call that meets a condition, if each such call keeps what it relies on. -/
theorem events_induction {P : Logger σ η ξ → Prop} {R Q : Event → Prop}
    (step : ∀ {l e l'}, P l → l.Performs e l' → R e → Q e ∧ P l') {l : Logger σ η ξ}
    {calls : List Call} (hl : P l) (hr : ∀ e ∈ l.events calls, R e) :
    (∀ e ∈ l.events calls, Q e) ∧ P (l.after calls) := by
  have hnil : (∀ e ∈ ([] : List Event), Q e) ∧ P l := ⟨by simp, hl⟩
  refine history_induction (P := fun l past => (∀ e ∈ past, Q e) ∧ P l) ?_ hnil hr
  intro l e l' past h hp hr
  obtain ⟨hq, hl'⟩ := step h.2 hp hr
  rw [List.forall_mem_append]
  exact ⟨⟨h.1, by simpa using hq⟩, hl'⟩

end Logger

end TraceJournal
