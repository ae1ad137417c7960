import TraceJournal.Json.Token

/-!
# JSON text as a tree

A text as far as it could be read. A text without fault is a tree of values; a text with one is
a tree up to the fault, which stands where reading it in order would meet it.
-/
namespace TraceJournal.Json

/-- A value as far as it could be read. A list or object that is not closed properly says what
keeps it from going on after its last part. -/
inductive Doc where
  | null
  | bool (b : Bool)
  | number (value : Except ReadFault Number) (passed : Option ReadFault)
  | string (value : Except ReadFault String) (passed : Option ReadFault)
  | list (items : List Doc) (stop : Option ReadFault)
  | object (members : List (Doc × Doc)) (stop : Option ReadFault)
  /-- A word that is cut or misspelled. -/
  | word (fault : ReadFault)
  /-- No value where one has to be. -/
  | absent (fault : ReadFault)
deriving Inhabited

/-- A list or object whose end has not been reached, with its parts newest first. An object's
key waits for its value. -/
inductive Frame where
  | list (items : List Doc)
  | object (members : List (Doc × Doc)) (key : Doc)

inductive Want where
  | value
  /-- A value, or the end of an empty list. -/
  | firstItem
  /-- A key, or the end of an empty object. -/
  | firstKey
  | colon
  /-- A comma or the end, after a part. -/
  | separator
  /-- A key after a comma. -/
  | key

/-- Where the tree builder stands: inside the open lists and objects of the stack, or after the
whole value. `broken` is a text that has a fault, `trailing` one that goes on after its value. -/
inductive Builder where
  | within (want : Want) (stack : List Frame)
  | complete (doc : Doc)
  | trailing (doc : Doc)
  | broken (doc : Doc)

namespace Builder

def start : Builder := .within .value []

def deliver (doc : Doc) : List Frame → Builder
  | [] => .complete doc
  | .list items :: stack => .within .separator (.list (doc :: items) :: stack)
  | .object members key :: stack =>
    .within .separator (.object ((key, doc) :: members) .null :: stack)

/-- The tree around a value with a fault. -/
def unwind (doc : Doc) : List Frame → Doc
  | [] => doc
  | .list items :: stack => unwind (.list (doc :: items).reverse (some .malformed)) stack
  | .object members key :: stack =>
    unwind (.object ((key, doc) :: members).reverse (some .malformed)) stack

/-- The tree where the innermost list or object cannot go on after its last part. -/
def halt (fault : ReadFault) : List Frame → Doc
  | [] => .absent fault
  | .list items :: stack => unwind (.list items.reverse (some fault)) stack
  | .object members _ :: stack => unwind (.object members.reverse (some fault)) stack

def scalar? : Token → Option Doc
  | .null => some .null
  | .bool b => some (.bool b)
  | .number value passed => some (.number value passed)
  | .string value passed => some (.string value passed)
  | .word fault => some (.word fault)
  | _ => none

def stepValue (token : Token) (stack : List Frame) : Builder :=
  match token with
  | .openList => .within .firstItem (.list [] :: stack)
  | .openObject => .within .firstKey (.object [] .null :: stack)
  | token =>
    match scalar? token with
    | some doc => deliver doc stack
    | none => .broken (unwind (.absent .malformed) stack)

def stepSeparator (token : Token) (stack : List Frame) : Builder :=
  match token, stack with
  | .comma, .list _ :: _ => .within .value stack
  | .comma, .object _ _ :: _ => .within .key stack
  | .closeList, .list items :: stack => deliver (.list items.reverse none) stack
  | .closeObject, .object members _ :: stack => deliver (.object members.reverse none) stack
  | _, stack => .broken (halt .malformed stack)

def step (builder : Builder) (token : Token) : Builder :=
  match builder with
  | .within .value stack => stepValue token stack
  | .within .firstItem stack =>
    match token, stack with
    | .closeList, .list items :: stack => deliver (.list items.reverse none) stack
    | token, stack => stepValue token stack
  | .within .separator stack => stepSeparator token stack
  | .within .firstKey stack =>
    match token, stack with
    | .string value passed, .object members _ :: stack =>
      .within .colon (.object members (.string value passed) :: stack)
    | .closeObject, .object members _ :: stack => deliver (.object members.reverse none) stack
    | _, stack => .broken (halt .malformed stack)
  | .within .key stack =>
    match token, stack with
    | .string value passed, .object members _ :: stack =>
      .within .colon (.object members (.string value passed) :: stack)
    | _, stack => .broken (halt .malformed stack)
  | .within .colon stack =>
    match token with
    | .colon => .within .value stack
    | _ => .broken (unwind (.absent .malformed) stack)
  | .complete doc => .trailing doc
  | .trailing doc => .trailing doc
  | .broken doc => .broken doc

/-- The tree when the tokens end, and whether more follows its value. -/
def finish : Builder → Doc × Bool
  | .complete doc => (doc, false)
  | .trailing doc => (doc, true)
  | .broken doc => (doc, false)
  | .within want stack =>
    match want, stack with
    | .separator, stack | .firstKey, stack => (halt .ended stack, false)
    | .key, .object members _ :: stack =>
      (unwind (.absent .ended) (.object members (.absent .ended) :: stack), false)
    | _, stack => (unwind (.absent .ended) stack, false)

end Builder

def Doc.ofText (text : List UInt8) : Doc × Bool :=
  ((tokens text).foldl Builder.step Builder.start).finish

end TraceJournal.Json
