import TraceJournal.Random.Draw
import TraceJournal.Script.Basic

/-!
# Simulated traffic

Scripts made up from a seed. A number of trace events follow each other in time, and in front of
each there may be one command: a dump, or a switch of the gate to the other side.
-/
namespace TraceJournal

/-- What is wanted of the traffic: the number of events, the longest payload, the probability of
a command before an event, and the seed. -/
structure TrafficParams where
  events : UInt32
  maxPayload : Nat
  commandRate : Float
  seed : UInt64

namespace TrafficParams

def initial : TrafficParams := ⟨64, 32, 0.05, 42⟩

/-- The longest payload that is drawn; no record holds a longer one than `maxPayload`. -/
def payloadLimit (p : TrafficParams) : Nat := min p.maxPayload TraceJournal.maxPayload

end TrafficParams

/-- How far the traffic has come: the time in microseconds, the number of commands, and whether
the gate is open. -/
structure Traffic where
  micros : Nat
  seq : UInt32
  enabled : Bool
deriving DecidableEq, Repr

namespace Traffic

def start : Traffic := ⟨0, 0, true⟩

def idCount : Nat := 64

/-- The longest time between two events, in microseconds. -/
def maxStep : Nat := 20000

def timeTag (micros : Nat) : TimeTag :=
  ⟨0, 0, .ofNat (min (micros / 1000000) (UInt32.size - 1)), .ofNat (micros % 1000000)⟩

def command (t : Traffic) : Random (Message × Traffic) := do
  let seq := t.seq + 1
  if ← Random.chance 0.5 then
    let enabled := !t.enabled
    return (.enableTrace enableTraceOpcode seq enabled, ⟨t.micros, seq, enabled⟩)
  else return (.dumpTrace dumpTraceOpcode seq, { t with seq })

/-- Perhaps a command. A rate above one counts as one; without a positive rate nothing is
drawn. -/
def perhapsCommand (rate : Float) (t : Traffic) : Random (List Message × Traffic) := do
  if 0 < rate then
    if ← Random.chance (if 1 < rate then 1 else rate) then
      let (message, t) ← t.command
      return ([message], t)
    else return ([], t)
  else return ([], t)

def event (payloadLimit : Nat) (t : Traffic) : Random (Message × Traffic) := do
  let step ← Random.below Random.word64 (maxStep + 1) (by decide)
  let kind ← Random.below Random.word32 Kind.all.length (by decide)
  let length ← Random.below Random.word32 (payloadLimit + 1) (Nat.succ_pos _)
  let payload ← Random.bytes length
  let id ← Random.below Random.word32 idCount (by decide)
  let micros := t.micros + step
  return (.trace ⟨.ofNat id, timeTag micros, Kind.all.get kind, payload⟩, { t with micros })

def next (p : TrafficParams) (t : Traffic) : Random (List Message × Traffic) := do
  let (commands, t) ← t.perhapsCommand p.commandRate
  let (event, t) ← t.event p.payloadLimit
  return (commands ++ [event], t)

/-- Appends as many events with their commands to messages that are newest first. -/
def extend (p : TrafficParams) : Nat → Traffic → List Message → Random (List Message)
  | 0, _, done => return done
  | n + 1, t, done => do
    let (messages, t) ← t.next p
    extend p n t (messages.reverse ++ done)

def messages (p : TrafficParams) : List Message :=
  let (newest, _) := (extend p p.events.toNat start []).run (.ofSeed p.seed)
  newest.reverse

/-- The traffic as a script, which tells how it was made. -/
def script (p : TrafficParams) : Script :=
  { Script.ofMessages (messages p) with
    metadata := some (.sorted [("generator", .text "tracelog-sim"), ("seed", .nat p.seed.toNat),
      ("events", .nat p.events.toNat), ("max_payload", .nat p.payloadLimit)]) }

end Traffic

end TraceJournal
