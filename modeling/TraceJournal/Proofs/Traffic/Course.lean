import Mathlib.Data.List.Chain
import Mathlib.Data.List.Iterate
import TraceJournal.Proofs.Traffic

/-!
# The course of traffic

What simulated traffic is as a whole: the rounds that it is made of, how its commands are numbered, how
its switches move the gate, and how much time passes between its events.
-/
namespace TraceJournal

/-- The side to which a message switches the gate. -/
def Message.enable? : Message → Option Bool
  | enableTrace _ _ enable => some enable
  | _ => none

/-- Switches that alternate, beginning on the other side, move the gate every time. -/
theorem Message.enable_eq_not_gate {opcode seq : UInt32} {enabled enable : Bool} {count : Nat}
    {earlier later : List Message}
    (h : (earlier ++ enableTrace opcode seq enable :: later).filterMap enable? =
      List.iterate not (!enabled) count) : enable = !gate enabled earlier := by
  induction earlier generalizing enabled count with
  | nil =>
    cases count with
    | zero => cases h
    | succ count => exact (List.cons.inj h).1
  | cons message earlier ih =>
    cases message with
    | trace | dumpTrace => exact ih h
    | enableTrace _ _ first =>
      cases count with
      | zero => cases h
      | succ count =>
        obtain ⟨hfirst, hrest⟩ := List.cons.inj h
        rw [← hfirst] at hrest
        exact ih hrest

def TimeTag.micros (t : TimeTag) : Nat := t.seconds.toNat * 1000000 + t.useconds.toNat

/-- An event, and the command in front of it if there is one. -/
structure Round where
  command : Option Message
  record : Record
  record?_eq_none : ∀ message ∈ command, message.record? = none

def Round.messages (round : Round) : List Message :=
  round.command.toList ++ [.trace round.record]

namespace Traffic

variable {limit n : Nat} {t there last : Traffic} {sent commands : List Message}

theorem toNat_useconds_timeTag (micros : Nat) :
    (timeTag micros).useconds.toNat = micros % 1000000 := by
  have hlt := Nat.mod_lt micros (by decide : 0 < 1000000)
  exact UInt32.toNat_ofNat_of_lt' (by simp only [UInt32.size]; omega)

theorem toNat_seconds_timeTag {micros : Nat} (h : micros / 1000000 < UInt32.size) :
    (timeTag micros).seconds.toNat = micros / 1000000 := by
  have hmin : min (micros / 1000000) (UInt32.size - 1) = micros / 1000000 := by omega
  rw [timeTag, hmin]
  exact UInt32.toNat_ofNat_of_lt' h

theorem micros_timeTag {micros : Nat} (h : micros / 1000000 < UInt32.size) :
    (timeTag micros).micros = micros := by
  rw [TimeTag.micros, toNat_seconds_timeTag h, toNat_useconds_timeTag]
  omega

theorem Commands.exists_round (h : t.Commands commands there) (r : Record) :
    ∃ round : Round, round.messages = commands ++ [.trace r] := by
  cases h with
  | none => exact ⟨⟨Option.none, r, by simp⟩, rfl⟩
  | switch => exact ⟨⟨some _, r, by simp [Message.record?]⟩, rfl⟩
  | dump => exact ⟨⟨some _, r, by simp [Message.record?]⟩, rfl⟩

theorem Commands.micros_eq (h : t.Commands commands there) : there.micros = t.micros := by
  cases h <;> rfl

theorem Commands.enables (h : t.Commands commands there) :
    commands.filterMap Message.enable? = [] ∧ there.enabled = t.enabled ∨
      commands.filterMap Message.enable? = [!t.enabled] ∧ there.enabled = !t.enabled := by
  cases h with
  | none | dump => exact .inl ⟨rfl, rfl⟩
  | switch => exact .inr ⟨rfl, rfl⟩

theorem Emits.bounded {r : Record} {after : Traffic} (h : t.Emits limit (.trace r) after) :
    r.id.toNat < idCount ∧ r.time.base = 0 ∧ r.time.context = 0 ∧ r.payload.length ≤ limit ∧
      r.time.useconds.toNat < 1000000 := by
  cases h with
  | @mk step id kind payload hstep hid hpayload =>
    have hword : (UInt32.ofNat id).toNat = id :=
      UInt32.toNat_ofNat_of_lt' (Nat.lt_trans hid (by decide))
    refine ⟨by rwa [hword], rfl, rfl, hpayload, ?_⟩
    rw [toNat_useconds_timeTag]
    exact Nat.mod_lt _ (by decide)

namespace Rounds

theorem exists_rounds (h : Rounds limit n t sent last) :
    ∃ rounds : List Round, sent = rounds.flatMap Round.messages := by
  induction h with
  | nil => exact ⟨[], rfl⟩
  | cons hcommands hevent _ ih =>
    obtain ⟨r, rfl, -⟩ := hevent.exists_record
    obtain ⟨round, hround⟩ := hcommands.exists_round r
    obtain ⟨rounds, rfl⟩ := ih
    exact ⟨round :: rounds, by simp [hround]⟩

/-- What holds of the record of every event holds of all records. -/
theorem forall_record {P : Record → Prop} (h : Rounds limit n t sent last)
    (hP : ∀ {t : Traffic} {r after}, t.Emits limit (.trace r) after → P r) :
    ∀ r ∈ sent.filterMap Message.record?, P r := by
  induction h with
  | nil => simp
  | cons hcommands hevent _ ih =>
    obtain ⟨r, rfl, -⟩ := hevent.exists_record
    have hrecord : (Message.trace r).record? = some r := rfl
    rw [List.filterMap_append, hcommands.records_eq_nil, List.nil_append,
      List.filterMap_cons_some hrecord, List.forall_mem_cons]
    exact ⟨hP hevent, ih⟩

/-- The switches alternate, beginning with one that moves the gate. -/
theorem enables (h : Rounds limit n t sent last) :
    ∃ count, sent.filterMap Message.enable? = List.iterate not (!t.enabled) count := by
  induction h with
  | nil => exact ⟨0, rfl⟩
  | @cons n t there here last commands sent event hcommands hevent _ ih =>
    obtain ⟨count, hcount⟩ := ih
    cases hevent with
    | mk =>
      have hevent : ∀ r, (Message.trace r).enable? = none := fun _ => rfl
      rw [List.filterMap_append, List.filterMap_cons_none (hevent _), hcount]
      obtain ⟨hnone, hsame⟩ | ⟨hone, hother⟩ := hcommands.enables
      · exact ⟨count, by rw [hnone, List.nil_append, hsame]⟩
      · exact ⟨count + 1, by rw [hone, List.singleton_append, hother, List.iterate]⟩

/-- The clock at the events: it starts at the time given, and moves on by one step at most. -/
theorem exists_clock (h : Rounds limit n t sent last) :
    ∃ clock : List Nat,
      (sent.filterMap Message.record?).map Record.time = clock.map timeTag ∧
      List.IsChain (fun a b => a ≤ b ∧ b ≤ a + maxStep) (t.micros :: clock) ∧
      ∀ micros ∈ clock, micros ≤ t.micros + n * maxStep := by
  induction h with
  | nil => exact ⟨[], rfl, .singleton _, by simp⟩
  | @cons n t there here last commands sent event hcommands hevent _ ih =>
    obtain ⟨clock, htimes, hchain, hbound⟩ := ih
    cases hevent with
    | @mk step id kind payload hstep =>
      rw [hcommands.micros_eq] at hchain hbound
      refine ⟨(t.micros + step) :: clock, ?_, ?_, ?_⟩
      · have hrecord : ∀ r, (Message.trace r).record? = some r := fun _ => rfl
        rw [List.filterMap_append, hcommands.records_eq_nil, List.nil_append,
          List.filterMap_cons_some (hrecord _), List.map_cons, List.map_cons, htimes,
          hcommands.micros_eq]
      · exact .cons_cons ⟨Nat.le_add_right _ _, Nat.add_le_add_left hstep _⟩ hchain
      · rw [List.forall_mem_cons, Nat.succ_mul]
        exact ⟨by omega, fun micros hmem => Nat.le_trans (hbound micros hmem) (by
          dsimp only
          omega)⟩

end Rounds

/-- What is promised of the messages that are made up for some parameters. -/
structure Course (p : TrafficParams) (sent : List Message) : Prop where
  /-- There are as many events as were asked for. -/
  events : (sent.filterMap Message.record?).length = p.events.toNat
  /-- Each comes with one command in front of it at most, and there are no other messages. -/
  rounds : ∃ rounds : List Round, sent = rounds.flatMap Round.messages
  /-- Commands are numbered from one on. -/
  numbered : (sent.filterMap Message.command?).map (·.2.toNat) =
    List.range' 1 (sent.filterMap Message.command?).length
  /-- Switches shut the gate and open it in turn. -/
  alternating : sent.filterMap Message.enable? =
    List.iterate not false (sent.filterMap Message.enable?).length
  /-- A gate that is open at the start is moved by each of them. -/
  switching : ∀ earlier opcode seq enable later,
    sent = earlier ++ .enableTrace opcode seq enable :: later → enable = !Message.gate true earlier
  /-- Every record stays within its bounds. -/
  bounded : ∀ r ∈ sent.filterMap Message.record?,
    r.id.toNat < idCount ∧ r.time.base = 0 ∧ r.time.context = 0 ∧
      r.payload.length ≤ min p.maxPayload maxPayload ∧ r.time.useconds.toNat < 1000000
  /-- Time does not run backwards, and no step is too long. -/
  paced : List.IsChain (fun earlier later => earlier ≤ later ∧ later ≤ earlier + maxStep)
    (0 :: (sent.filterMap Message.record?).map (·.time.micros))
  /-- No time comes near the second that stands for all those that cannot be told. -/
  unsaturated : ∀ r ∈ sent.filterMap Message.record?, r.time.seconds.toNat < UInt32.size - 1

/-- The time of so many events can be told. -/
theorem seconds_lt_of_le {micros : Nat} {events : UInt32}
    (h : micros ≤ start.micros + events.toNat * maxStep) :
    micros / 1000000 < UInt32.size - 1 := by
  have hevents := events.toNat_lt
  simp only [start, maxStep, UInt32.size] at h ⊢
  omega

theorem exists_clock_messages (p : TrafficParams) :
    ∃ clock : List Nat,
      ((messages p).filterMap Message.record?).map Record.time = clock.map timeTag ∧
      List.IsChain (fun a b => a ≤ b ∧ b ≤ a + maxStep) (0 :: clock) ∧
      ∀ micros ∈ clock, micros / 1000000 < UInt32.size - 1 := by
  obtain ⟨last, hrounds⟩ := rounds_messages p
  obtain ⟨clock, htimes, hchain, hbound⟩ := hrounds.exists_clock
  exact ⟨clock, htimes, hchain, fun micros hmem => seconds_lt_of_le (hbound micros hmem)⟩

/-- Simulated traffic keeps what is promised of it, whatever is drawn and whatever the parameters. -/
theorem course_script (p : TrafficParams) : Course p (script p).messages := by
  obtain ⟨last, hrounds⟩ := rounds_messages p
  obtain ⟨count, -, hseqs⟩ := hrounds.seqs (by simpa [start] using p.events.toNat_lt)
  obtain ⟨switches, henables⟩ := hrounds.enables
  obtain ⟨clock, htimes, hchain, htold⟩ := exists_clock_messages p
  have hmicros : ∀ micros ∈ clock, (timeTag micros).micros = micros := fun micros hmem =>
    micros_timeTag (Nat.lt_of_lt_of_le (htold micros hmem) (Nat.sub_le _ _))
  have hmessages : (script p).messages = messages p := rfl
  rw [hmessages]
  constructor
  case events => exact hrounds.records.1
  case rounds => exact hrounds.exists_rounds
  case numbered =>
    have hcount := congrArg List.length hseqs
    rw [List.length_map, List.length_range'] at hcount
    rw [hseqs, hcount]
    rfl
  case alternating =>
    have hcount := congrArg List.length henables
    rw [List.length_iterate] at hcount
    rw [hcount, henables]
    rfl
  case switching =>
    intro earlier opcode seq enable later hsent
    rw [hsent] at henables
    exact Message.enable_eq_not_gate henables
  case bounded => exact hrounds.forall_record Emits.bounded
  case paced =>
    have hclock : ((messages p).filterMap Message.record?).map (·.time.micros) = clock := by
      calc ((messages p).filterMap Message.record?).map (·.time.micros)
        _ = (clock.map timeTag).map TimeTag.micros := by rw [← htimes, List.map_map]; rfl
        _ = clock.map id := by rw [List.map_map]; exact List.map_congr_left hmicros
        _ = clock := List.map_id _
    rwa [hclock]
  case unsaturated =>
    intro r hr
    have htime : r.time ∈ clock.map timeTag := htimes ▸ List.mem_map_of_mem hr
    obtain ⟨micros, hmem, heq⟩ := List.mem_map.1 htime
    rw [← heq, toNat_seconds_timeTag (Nat.lt_of_lt_of_le (htold micros hmem) (Nat.sub_le _ _))]
    exact htold micros hmem

end Traffic

end TraceJournal
