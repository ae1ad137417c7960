import TraceJournal.Cbor.Token

/-!
# CBOR as a tree

An input as far as it could be read. What has a fault ends in an item that says so, at the
place where reading in order would meet it. What follows the first item does not matter.
-/
namespace TraceJournal.Cbor

inductive Item where
  | unsigned (n : Nat)
  | negative (n : Nat)
  /-- Bytes, with their length if their head gives one. Of bytes with a fault, those are known
  that have been seen before it. -/
  | bytes (length : Option Nat) (seen : List UInt8) (fault : Option ReadFault)
  | text (length : Option Nat) (content : Except ReadFault String)
  /-- A list, with its length if its head gives one. -/
  | list (length : Option Nat) (items : List Item)
  | map (length : Option Nat) (members : List (Item × Item))
  | tagged (tag : Nat) (item : Item)
  | simple (n : Nat)
  | float (x : Float)
  /-- The end of a list where an item has to be. -/
  | stray
  | absent (fault : ReadFault)
deriving Inhabited

/-- What is open around the next item, with its parts newest first. `left` counts the parts to
come, if the length is definite. -/
inductive Frame where
  | list (length left : Option Nat) (items : List Item)
  | map (length left : Option Nat) (members : List (Item × Item)) (key : Option Item)
  | tagged (tag : Nat)
  /-- Segments of a string of indefinite length, with the number of such strings around them. -/
  | bytes (outer : Nat) (segments : List (List UInt8))
  | text (outer : Nat) (segments : List String)

inductive Builder where
  | within (stack : List Frame)
  | finished (item : Item)

namespace Builder

def start : Builder := .within []

/-- The tree around an item with a fault. -/
def unwind (item : Item) : List Frame → Item
  | [] => item
  | .list length _ items :: stack => unwind (.list length (item :: items).reverse) stack
  | .map length _ members (some key) :: stack =>
    unwind (.map length ((key, item) :: members).reverse) stack
  | .map length _ members none :: stack =>
    unwind (.map length ((item, item) :: members).reverse) stack
  | .tagged tag :: stack => unwind (.tagged tag item) stack
  | .bytes _ _ :: stack | .text _ _ :: stack => unwind item stack

/-- Puts an item to its place, and so on with what it completes. -/
def deliver (item : Item) : List Frame → Builder
  | [] => .finished item
  | .list length left items :: stack =>
    match left with
    | some 0 | some 1 => deliver (.list length (item :: items).reverse) stack
    | some (left + 1) => .within (.list length (some left) (item :: items) :: stack)
    | none => .within (.list length none (item :: items) :: stack)
  | .map length left members none :: stack =>
    .within (.map length left members (some item) :: stack)
  | .map length left members (some key) :: stack =>
    match left with
    | some 0 | some 1 => deliver (.map length ((key, item) :: members).reverse) stack
    | some (left + 1) => .within (.map length (some left) ((key, item) :: members) none :: stack)
    | none => .within (.map length none ((key, item) :: members) none :: stack)
  | .tagged tag :: stack => deliver (.tagged tag item) stack
  | .bytes _ _ :: _ | .text _ _ :: _ => .finished item

def stepItem (token : Token) (stack : List Frame) : Builder :=
  match token with
  | .unsigned n => deliver (.unsigned n) stack
  | .negative n => deliver (.negative n) stack
  | .bytes length seen fault => deliver (.bytes (some length) seen fault) stack
  | .text length content => deliver (.text (some length) content) stack
  | .simple n => deliver (.simple n) stack
  | .float x => deliver (.float x) stack
  | .openBytes => .within (.bytes 0 [] :: stack)
  | .openText => .within (.text 0 [] :: stack)
  | .list (some 0) => deliver (.list (some 0) []) stack
  | .list length => .within (.list length length [] :: stack)
  | .map (some 0) => deliver (.map (some 0) []) stack
  | .map length => .within (.map length length [] none :: stack)
  | .tag tag => .within (.tagged tag :: stack)
  | .stop =>
    match stack with
    | .list none none items :: stack => deliver (.list none items.reverse) stack
    | .map none none members none :: stack => deliver (.map none members.reverse) stack
    | stack => .finished (unwind .stray stack)
  | .fault f => .finished (unwind (.absent f) stack)

/-- Bytes of indefinite length that end, with a fault or without one. -/
def endBytes (segments : List (List UInt8)) (fault : Option ReadFault) : Item :=
  .bytes none segments.reverse.flatten fault

/-- One token. The segments of a string are strings of its kind. -/
def step (builder : Builder) (token : Token) : Builder :=
  match builder with
  | .finished item => .finished item
  | .within (.bytes outer segments :: stack) =>
    match token, outer with
    | .bytes _ seen none, outer => .within (.bytes outer (seen :: segments) :: stack)
    | .bytes _ seen (some f), _ => .finished (unwind (endBytes (seen :: segments) (some f)) stack)
    | .fault f, _ => .finished (unwind (endBytes segments (some f)) stack)
    | .openBytes, outer => .within (.bytes (outer + 1) segments :: stack)
    | .stop, 0 => deliver (endBytes segments none) stack
    | .stop, outer + 1 => .within (.bytes outer segments :: stack)
    | _, _ => .finished (unwind (endBytes segments (some .malformed)) stack)
  | .within (.text outer segments :: stack) =>
    match token, outer with
    | .text _ (.ok content), outer => .within (.text outer (content :: segments) :: stack)
    | .text _ (.error f), _ | .fault f, _ => .finished (unwind (.text none (.error f)) stack)
    | .openText, outer => .within (.text (outer + 1) segments :: stack)
    | .stop, 0 => deliver (.text none (.ok (String.join segments.reverse))) stack
    | .stop, outer + 1 => .within (.text outer segments :: stack)
    | _, _ => .finished (unwind (.text none (.error .malformed)) stack)
  | .within stack => stepItem token stack

def finish : Builder → Item
  | .finished item => item
  | .within (.bytes _ segments :: stack) => unwind (endBytes segments (some .ended)) stack
  | .within (.text _ _ :: stack) => unwind (.text none (.error .ended)) stack
  | .within stack => unwind (.absent .ended) stack

end Builder

def Item.ofBytes (input : List UInt8) : Item :=
  ((tokens input).foldl Builder.step Builder.start).finish

end TraceJournal.Cbor
