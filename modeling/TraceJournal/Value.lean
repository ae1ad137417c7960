/-!
# Plain data

What a document can hold once it has been read without fault: nulls, truth values, numbers,
texts, lists, and objects with named members. Records and messages are written as such data,
with their members in declared order.
-/
namespace TraceJournal

/-- A document's content. The members of an object are in order; reading keeps them sorted. -/
inductive Value where
  | null
  | bool (b : Bool)
  | int (n : Int)
  | float (x : Float)
  | text (s : String)
  | list (items : List Value)
  | object (members : List (String × Value))
deriving Inhabited

namespace Value

def nat (n : Nat) : Value := .int n

def insert (name : String) (value : Value) :
    List (String × Value) → List (String × Value)
  | [] => [(name, value)]
  | (other, old) :: rest =>
    if name < other then (name, value) :: (other, old) :: rest
    else if name = other then (name, value) :: rest
    else (other, old) :: insert name value rest

/-- An object with its members sorted by name; the last of several members of one name stays. -/
def sorted (members : List (String × Value)) : Value :=
  .object (members.foldl (fun done (name, value) => insert name value done) [])

mutual

/-- Equality of data; numbers are compared as numbers, so a float that is undefined differs
from itself. -/
def same : Value → Value → Bool
  | .null, .null => true
  | .bool a, .bool b => a == b
  | .int a, .int b => a == b
  | .float a, .float b => a == b
  | .text a, .text b => a == b
  | .list as, .list bs => sameList as bs
  | .object as, .object bs => sameMembers as bs
  | _, _ => false

def sameList : List Value → List Value → Bool
  | [], [] => true
  | a :: as, b :: bs => same a b && sameList as bs
  | _, _ => false

def sameMembers : List (String × Value) → List (String × Value) → Bool
  | [], [] => true
  | (m, a) :: as, (n, b) :: bs => m == n && same a b && sameMembers as bs
  | _, _ => false

end

instance : BEq Value := ⟨same⟩

end Value

end TraceJournal
