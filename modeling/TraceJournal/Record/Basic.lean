import TraceJournal.Text.Number

/-!
# Trace records

A record is one trace event: the identifier of the point that fired, a time tag, the kind of
event and its serialized arguments. The arguments are opaque bytes.
-/
namespace TraceJournal

/-- When an event happened: a clock source, a user-defined segment of its epoch, and the time. -/
structure TimeTag where
  base : UInt16
  context : UInt8
  seconds : UInt32
  useconds : UInt32
deriving DecidableEq, Repr, Inhabited

/-- Microseconds are padded to six places; a value that needs more keeps all its digits. -/
def TimeTag.display (t : TimeTag) : String :=
  s!"{t.seconds}.{Text.padded 6 t.useconds.toNat} (base={t.base}, ctx={t.context})"

inductive Kind where
  | enter | exit | point | messageQueue | portCall | user
deriving DecidableEq, Repr, Inhabited

namespace Kind

/-- Every kind, in the order of the wire tags. -/
def all : List Kind := [enter, exit, point, messageQueue, portCall, user]

def name : Kind → String
  | enter => "enter"
  | exit => "exit"
  | point => "point"
  | messageQueue => "message_queue"
  | portCall => "port_call"
  | user => "user"

def tag : Kind → UInt8
  | enter => 0
  | exit => 1
  | point => 2
  | messageQueue => 3
  | portCall => 4
  | user => 5

def ofTag? : UInt8 → Option Kind
  | 0 => some enter
  | 1 => some exit
  | 2 => some point
  | 3 => some messageQueue
  | 4 => some portCall
  | 5 => some user
  | _ => none

@[simp] theorem ofTag?_tag (k : Kind) : ofTag? k.tag = some k := by cases k <;> rfl

theorem tag_of_ofTag? {t : UInt8} {k : Kind} (h : ofTag? t = some k) : t = k.tag := by
  unfold ofTag? at h
  split at h <;> cases h <;> rfl

end Kind

structure Record where
  id : UInt32
  time : TimeTag
  kind : Kind
  payload : List UInt8
deriving DecidableEq, Repr, Inhabited

end TraceJournal
