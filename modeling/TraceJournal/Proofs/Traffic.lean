import TraceJournal.Proofs.Random
import TraceJournal.Proofs.Message.Arrivals
import TraceJournal.Traffic

/-!
# The shape of traffic

Whatever is drawn, traffic is a number of rounds. Each ends with an event, and one command at most
stands in front of it.
-/
namespace TraceJournal.Traffic

variable {limit n : Nat} {t last : Traffic} {sent : List Message}

/-- What may be sent in front of an event. A switch always moves the gate. -/
inductive Commands (t : Traffic) : List Message → Traffic → Prop
  | none : Commands t [] t
  | switch : Commands t [.enableTrace enableTraceOpcode (t.seq + 1) (!t.enabled)]
      ⟨t.micros, t.seq + 1, !t.enabled⟩
  | dump : Commands t [.dumpTrace dumpTraceOpcode (t.seq + 1)] { t with seq := t.seq + 1 }

/-- What an event is, and when it comes. -/
inductive Emits (limit : Nat) (t : Traffic) : Message → Traffic → Prop
  | mk {step id : Nat} {kind : Kind} {payload : List UInt8} (hstep : step ≤ maxStep)
      (hid : id < idCount) (hpayload : payload.length ≤ limit) :
      Emits limit t (.trace ⟨.ofNat id, timeTag (t.micros + step), kind, payload⟩)
        { t with micros := t.micros + step }

/-- Rounds of traffic, one after the other. -/
inductive Rounds (limit : Nat) : Nat → Traffic → List Message → Traffic → Prop
  | nil (t : Traffic) : Rounds limit 0 t [] t
  | cons {n : Nat} {t there here last : Traffic} {commands sent : List Message} {event : Message}
      (hcommands : t.Commands commands there) (hevent : there.Emits limit event here)
      (h : Rounds limit n here sent last) :
      Rounds limit (n + 1) t (commands ++ event :: sent) last

theorem always_command (t : Traffic) :
    t.command.Always fun (message, after) => t.Commands [message] after := by
  rw [command]
  apply Random.Always.bind_any
  intro flips
  cases flips with
  | true => exact .pure .switch
  | false => exact .pure .dump

theorem always_perhapsCommand (rate : Float) (t : Traffic) :
    (t.perhapsCommand rate).Always fun (commands, after) => t.Commands commands after := by
  rw [perhapsCommand]
  split
  · apply Random.Always.bind_any
    intro wanted
    cases wanted with
    | true =>
      apply t.always_command.bind
      rintro ⟨message, after⟩ h
      exact .pure h
    | false => exact .pure .none
  · exact .pure .none

theorem always_event (limit : Nat) (t : Traffic) :
    (t.event limit).Always fun (message, after) => t.Emits limit message after := by
  rw [event]
  apply Random.Always.bind_any
  intro step
  apply Random.Always.bind_any
  intro kind
  apply Random.Always.bind_any
  intro length
  apply (Random.always_bytes length).bind
  intro payload hpayload
  apply Random.Always.bind_any
  intro id
  have hlength : payload.length ≤ limit := hpayload ▸ Nat.le_of_lt_succ length.isLt
  exact .pure (.mk (Nat.le_of_lt_succ step.isLt) id.isLt hlength)

/-- A round is added in front of those that follow. -/
theorem always_extend (p : TrafficParams) (n : Nat) (t : Traffic) (done : List Message) :
    (extend p n t done).Always fun newest => ∃ sent last,
      Rounds p.payloadLimit n t sent last ∧ newest = sent.reverse ++ done := by
  induction n generalizing t done with
  | zero => exact .pure ⟨[], t, .nil t, rfl⟩
  | succ n ih =>
    rw [extend, next, bind_assoc]
    apply (t.always_perhapsCommand p.commandRate).bind
    rintro ⟨commands, there⟩ hcommands
    rw [bind_assoc]
    apply (there.always_event p.payloadLimit).bind
    rintro ⟨event, here⟩ hevent
    rw [pure_bind]
    apply (ih here ((commands ++ [event]).reverse ++ done)).mono
    rintro newest ⟨sent, last, hrounds, rfl⟩
    exact ⟨commands ++ event :: sent, last, .cons hcommands hevent hrounds, by simp⟩

/-- Simulated traffic is as many rounds as events were asked for. -/
theorem rounds_messages (p : TrafficParams) :
    ∃ last, Rounds p.payloadLimit p.events.toNat start (messages p) last := by
  rcases (always_extend p p.events.toNat start []).of_stream (.ofSeed p.seed) with
    ⟨sent, last, hrounds, hnewest⟩
  have hmessages : messages p = (StateT.run (extend p p.events.toNat start [])
    (.ofSeed p.seed)).1.reverse := rfl
  refine ⟨last, ?_⟩
  rwa [hmessages, hnewest, List.append_nil, List.reverse_reverse]

theorem Commands.records_eq_nil {there : Traffic} {commands : List Message}
    (h : t.Commands commands there) : commands.filterMap Message.record? = [] := by
  cases h <;> rfl

theorem Commands.ids {there : Traffic} {commands : List Message} (h : t.Commands commands there) :
    commands.filterMap Message.command? = [] ∧ there.seq = t.seq ∨
      there.seq = t.seq + 1 ∧
        ∃ opcode, commands.filterMap Message.command? = [(opcode, t.seq + 1)] := by
  cases h with
  | none => exact .inl ⟨rfl, rfl⟩
  | switch => exact .inr ⟨rfl, _, rfl⟩
  | dump => exact .inr ⟨rfl, _, rfl⟩

theorem Emits.exists_record {event : Message} {after : Traffic} (h : t.Emits limit event after) :
    ∃ r, event = .trace r ∧ r.payload.length ≤ limit ∧ after.seq = t.seq := by
  cases h with
  | mk _ _ hpayload => exact ⟨_, rfl, hpayload, rfl⟩

/-- Every round sends one record, which is not too long. -/
theorem Rounds.records (h : Rounds limit n t sent last) :
    (sent.filterMap Message.record?).length = n ∧
      ∀ r ∈ sent.filterMap Message.record?, r.payload.length ≤ limit := by
  induction h with
  | nil => simp
  | cons hcommands hevent _ ih =>
    rcases hevent.exists_record with ⟨r, rfl, hpayload, -⟩
    have hrecord : (Message.trace r).record? = some r := rfl
    rw [List.filterMap_append, hcommands.records_eq_nil, List.nil_append,
      List.filterMap_cons_some hrecord, List.length_cons, List.forall_mem_cons]
    exact ⟨congrArg (· + 1) ih.1, hpayload, ih.2⟩

theorem Rounds.encodable (h : Rounds limit n t sent last) (hlimit : limit ≤ maxPayload) :
    ∀ r ∈ sent.filterMap Message.record?, r.Encodable :=
  fun r hr => Nat.le_trans (h.records.2 r hr) hlimit

/-- Commands are numbered on from the last one, as long as the numbers do not run out. -/
theorem Rounds.seqs (h : Rounds limit n t sent last) (hseq : t.seq.toNat + n < UInt32.size) :
    ∃ count ≤ n, (sent.filterMap Message.command?).map (·.2.toNat) =
      List.range' (t.seq.toNat + 1) count := by
  induction h with
  | nil => exact ⟨0, Nat.le_refl _, rfl⟩
  | @cons n t there here last commands sent event hcommands hevent _ ih =>
    rcases hevent.exists_record with ⟨r, rfl, -, hhere⟩
    have hevent : (Message.trace r).command? = none := rfl
    rw [hhere] at ih
    rw [List.filterMap_append, List.filterMap_cons_none hevent]
    rcases hcommands.ids with ⟨hnone, hsame⟩ | ⟨hnext, opcode, hone⟩
    · rw [hsame] at ih
      rcases ih (by omega) with ⟨count, hcount, hseqs⟩
      exact ⟨count, Nat.le_succ_of_le hcount, by rw [hnone, List.nil_append, hseqs]⟩
    · have hsucc : (t.seq + 1).toNat = t.seq.toNat + 1 := by
        change (t.seq.toNat + 1) % UInt32.size = _
        exact Nat.mod_eq_of_lt (by omega)
      rw [hnext, hsucc] at ih
      rcases ih (by omega) with ⟨count, hcount, hseqs⟩
      refine ⟨count + 1, Nat.succ_le_succ hcount, ?_⟩
      rw [hone, List.singleton_append, List.map_cons, hseqs, hsucc, List.range'_succ]

end TraceJournal.Traffic
