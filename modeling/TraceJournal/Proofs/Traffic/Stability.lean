import TraceJournal.Proofs.Traffic

/-!
# Traffic that goes on

More events never change what was sent before them: nothing that is drawn depends on how many events are
still to come. Nor does it depend on a limit for payloads that no record could reach.
-/
namespace TraceJournal.Traffic

variable {p q : TrafficParams}

/-- Of the parameters, only the rate of commands and the longest payload that is drawn bear on the
events. -/
theorem extend_congr (hrate : p.commandRate = q.commandRate) (hlimit : p.payloadLimit = q.payloadLimit)
    (n : Nat) (t : Traffic) (done : List Message) : extend p n t done = extend q n t done := by
  have hnext : ∀ t : Traffic, t.next p = t.next q := by
    intro t
    rw [next, next, hrate, hlimit]
  induction n generalizing t done with
  | zero => rfl
  | succ n ih =>
    rw [extend, extend, hnext]
    apply bind_congr
    rintro ⟨messages, t⟩
    exact ih t _

/-- The first of several events, and the others from where it leaves the traffic and the stream. -/
theorem run_extend_succ (p : TrafficParams) (n : Nat) (t : Traffic) (done : List Message)
    (stream : Random.Stream) : (extend p (n + 1) t done).run stream =
      (extend p n ((t.next p).run stream).1.2 (((t.next p).run stream).1.1.reverse ++ done)).run
        ((t.next p).run stream).2 := by
  rcases hnext : (t.next p).run stream with ⟨⟨messages, there⟩, streamThere⟩
  rw [extend, StateT.run_bind, hnext]
  rfl

/-- Once some events have been sent, the others follow from where these have left the traffic and the
stream, however many there are. -/
theorem exists_resumed (p : TrafficParams) (n : Nat) (t : Traffic) (done : List Message)
    (stream : Random.Stream) : ∃ there streamThere, ∀ k,
      (extend p (n + k) t done).run stream =
        (extend p k there ((extend p n t done).run stream).1).run streamThere := by
  induction n generalizing t done stream with
  | zero => exact ⟨t, stream, fun k => by rw [Nat.zero_add]; rfl⟩
  | succ n ih =>
    obtain ⟨there, streamThere, hrest⟩ := ih ((t.next p).run stream).1.2
      (((t.next p).run stream).1.1.reverse ++ done) ((t.next p).run stream).2
    refine ⟨there, streamThere, fun k => ?_⟩
    rw [Nat.add_right_comm, run_extend_succ, run_extend_succ, hrest k]

theorem suffix_extend (p : TrafficParams) (n : Nat) (t : Traffic) (done : List Message)
    (stream : Random.Stream) : done <:+ ((extend p n t done).run stream).1 := by
  obtain ⟨sent, -, -, hnewest⟩ := (always_extend p n t done).of_stream stream
  exact ⟨sent.reverse, hnewest.symm⟩

theorem messages_isPrefix (hrate : p.commandRate = q.commandRate)
    (hlimit : p.payloadLimit = q.payloadLimit) (hseed : p.seed = q.seed) (hevents : p.events ≤ q.events) :
    messages p <+: messages q := by
  obtain ⟨k, hk⟩ := Nat.exists_eq_add_of_le (UInt32.le_iff_toNat_le.1 hevents)
  obtain ⟨there, streamThere, hresumed⟩ :=
    exists_resumed q p.events.toNat start [] (.ofSeed q.seed)
  have hp : messages p = ((extend q p.events.toNat start []).run (.ofSeed q.seed)).1.reverse := by
    rw [← extend_congr hrate hlimit, ← hseed]
    rfl
  have hq : messages q = ((extend q q.events.toNat start []).run (.ofSeed q.seed)).1.reverse := rfl
  rw [hp, hq, hk, hresumed k, List.reverse_prefix]
  exact suffix_extend q k there _ streamThere

theorem Rounds.exists_last {limit n : Nat} {t last : Traffic} {sent : List Message}
    (h : Rounds limit (n + 1) t sent last) : ∃ earlier r, sent = earlier ++ [.trace r] := by
  induction n generalizing t sent with
  | zero =>
    cases h with
    | cons hcommands hevent hrest =>
      obtain ⟨r, rfl, -⟩ := hevent.exists_record
      cases hrest
      exact ⟨_, r, rfl⟩
  | succ n ih =>
    cases h with
    | @cons _ _ _ _ _ commands _ event hcommands hevent hrest =>
      obtain ⟨earlier, r, rfl⟩ := ih hrest
      exact ⟨commands ++ event :: earlier, r, by simp⟩

/-- Traffic of a number of events is how longer traffic begins, up to and with the event of that
number. Beyond the longest payload that a record can have, the limit for payloads makes no difference. -/
theorem script_stable (p : TrafficParams) :
    (∀ n m : UInt32, n ≤ m →
      (script { p with events := n }).messages <+: (script { p with events := m }).messages ∧
      (n = 0 → (script { p with events := n }).messages = []) ∧
      (0 < n → ∃ earlier r, (script { p with events := n }).messages = earlier ++ [.trace r] ∧
        (earlier.filterMap Message.record?).length + 1 = n.toNat)) ∧
    ∀ a b : Nat, maxPayload ≤ a → maxPayload ≤ b →
      (script { p with maxPayload := a }).messages = (script { p with maxPayload := b }).messages := by
  refine ⟨fun n m hnm => ⟨messages_isPrefix rfl rfl rfl hnm, ?_, ?_⟩, ?_⟩
  · rintro rfl
    rfl
  · intro hn
    obtain ⟨last, hrounds⟩ := rounds_messages { p with events := n }
    have hcount := hrounds.records.1
    obtain ⟨k, hk⟩ := Nat.exists_eq_add_of_le' (UInt32.lt_iff_toNat_lt.1 hn)
    have hsucc : n.toNat = k + 1 := hk
    rw [hsucc] at hrounds
    obtain ⟨earlier, r, hsent⟩ := hrounds.exists_last
    refine ⟨earlier, r, hsent, ?_⟩
    rw [← hcount, hsent, List.filterMap_append, List.length_append]
    rfl
  · intro a b ha hb
    have hlimit : ∀ c, maxPayload ≤ c →
        TrafficParams.payloadLimit { p with maxPayload := c } = maxPayload :=
      fun c hc => Nat.min_eq_right hc
    have hsame := extend_congr (p := { p with maxPayload := a }) (q := { p with maxPayload := b }) rfl
      ((hlimit a ha).trans (hlimit b hb).symm)
    change messages _ = messages _
    rw [messages, messages, hsame]

/-- Three events after two of them, with limits at and far beyond the longest payload. -/
theorem script_stable_third :
    (2 : UInt32) ≤ 3 ∧ maxPayload ≤ 256 ∧ maxPayload ≤ 100000 ∧
    (script { TrafficParams.initial with events := 2 }).messages <+:
      (script { TrafficParams.initial with events := 3 }).messages ∧
    (∃ earlier r, (script { TrafficParams.initial with events := 2 }).messages =
      earlier ++ [.trace r] ∧ (earlier.filterMap Message.record?).length + 1 = 2) ∧
    (script { TrafficParams.initial with maxPayload := 256 }).messages =
      (script { TrafficParams.initial with maxPayload := 100000 }).messages := by
  have hpayload : maxPayload ≤ 100000 := by decide
  obtain ⟨hevents, hlimits⟩ := script_stable .initial
  obtain ⟨hbegins, -, hlast⟩ := hevents 2 3 (by decide)
  exact ⟨by decide, by decide, hpayload, hbegins, hlast (by decide),
    hlimits 256 100000 (by decide) hpayload⟩

end TraceJournal.Traffic
