import TraceJournal.Decimal.Reading
import TraceJournal.Text.Number

/-!
# Flags

Arguments of a command are flags with a name after two dashes. A flag that has a value takes it
from behind an equals sign, or else from the next argument, which must not look like a flag.
Each flag may stand once. An argument of two dashes alone ends the flags, and nothing may follow
it, since no argument stands without a flag.

Flags are judged in order, each together with its value: help is given where no flag before it
is wrong.
-/
namespace TraceJournal.CommandLine

/-! ## Values of flags -/

def readPath (text : String) : Option String := if text.isEmpty then none else some text

def readUInt32 (low : Int) (text : String) : Option UInt32 := do
  let n ← Text.integer? text.toList
  if low ≤ n ∧ n < 0x100000000 then return .ofNat n.toNat else none

def readUInt64 (text : String) : Option UInt64 := do
  let n ← Text.unsigned? text.toList
  if n < UInt64.size then return .ofNat n else none

/-- What a flag has for a value, if it has one. -/
inductive FlagKind where
  | switch
  | path
  /-- An integer of 32 bits that is at least `low`. -/
  | word (low : Int)
  | longWord
  | decimal
deriving DecidableEq, Repr

def FlagKind.accepts (text : String) : FlagKind → Bool
  | switch => false
  | path => (readPath text).isSome
  | word low => (readUInt32 low text).isSome
  | longWord => (readUInt64 text).isSome
  | decimal => (Decimal.read? text).isSome

/-! ## Reading flags -/

structure Flag where
  name : String
  kind : FlagKind
deriving DecidableEq, Repr

/-- The flags of a command line with their values, in order. -/
abbrev Settings := List (String × String)

/-- Why flags give no settings: they are wrong, or they ask for help. -/
inductive Unset where
  | misused
  | helpWanted
deriving DecidableEq, Repr

namespace Flag

/-- Whether an argument begins like a flag. A single dash is a value. -/
def isFlagLike (argument : String) : Bool :=
  match argument.toList with
  | '-' :: _ :: _ => true
  | _ => false

/-- The name of a flag, and the value that is attached to it. -/
def split? (argument : String) : Option (String × Option String) :=
  match argument.toList with
  | '-' :: '-' :: cs =>
    match cs.span (· != '=') with
    | (name, _ :: value) => some (String.ofList name, some (String.ofList value))
    | (name, []) => some (String.ofList name, none)
  | _ => none

def isShort (letter : Char) (argument : String) : Bool :=
  ['-', letter].isPrefixOf argument.toList

/-- Reads flags, and puts them behind the settings that are done, which are newest first. -/
def read (known : List Flag) (done : Settings) : List String → Except Unset Settings
  | [] => .ok done.reverse
  | argument :: rest =>
    if argument = "--" then if rest.isEmpty then .ok done.reverse else .error .misused
    else if argument = "--help" || isShort 'h' argument then .error .helpWanted
    else
      match split? argument with
      | none => .error .misused
      | some (name, attached) =>
        match known.find? (·.name == name) with
        | none => .error .misused
        | some flag =>
          if done.any (·.1 == name) then .error .misused
          else
            match flag.kind, attached, rest with
            | .switch, none, rest => read known ((name, "") :: done) rest
            | kind, some value, rest =>
              if kind.accepts value then read known ((name, value) :: done) rest
              else .error .misused
            | kind, none, value :: rest =>
              if isFlagLike value || !kind.accepts value then .error .misused
              else read known ((name, value) :: done) rest
            | _, none, [] => .error .misused

end Flag

/-- The value of a setting, if it is there, as `read` understands it. -/
def Settings.value? {α : Type} (settings : Settings) (name : String) (read : String → Option α) :
    Option (Option α) :=
  match settings.lookup name with
  | none => some none
  | some text => (read text).map some

def Settings.has (settings : Settings) (name : String) : Bool := (settings.lookup name).isSome

end TraceJournal.CommandLine
