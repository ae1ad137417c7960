import TraceJournal.Value
import Mathlib.Data.String.Basic
import Mathlib.Order.Lattice

/-!
# Plain data by its parts

Induction over data goes from the items of a list and the members of an object to the whole. How
deep data is nested and what holds of all its parts are computed the same way.
-/
namespace TraceJournal

namespace Value

/-- What holds of a list or an object if it holds of its parts, and of all that has no parts, holds of
all data. -/
@[elab_as_elim, induction_eliminator]
theorem ind {P : Value → Prop} (null : P .null) (bool : ∀ b, P (.bool b))
    (int : ∀ n, P (.int n)) (float : ∀ x, P (.float x)) (text : ∀ s, P (.text s))
    (list : ∀ items : List Value, (∀ v ∈ items, P v) → P (.list items))
    (object : ∀ members : List (String × Value), (∀ m ∈ members, P m.2) → P (.object members))
    (v : Value) : P v :=
  Value.rec (motive_1 := P) (motive_2 := fun items => ∀ v ∈ items, P v)
    (motive_3 := fun members => ∀ m ∈ members, P m.2) (motive_4 := fun m => P m.2)
    null bool int float text list object (by simp)
    (fun _ _ hv hvs => List.forall_mem_cons.2 ⟨hv, hvs⟩) (by simp)
    (fun _ _ hm hms => List.forall_mem_cons.2 ⟨hm, hms⟩) (fun _ _ hv => hv) v

mutual

/-- How many lists and objects lie around the innermost part, that part included. -/
def depth : Value → Nat
  | .list items => depthItems items + 1
  | .object members => depthMembers members + 1
  | _ => 0

def depthItems : List Value → Nat
  | [] => 0
  | item :: items => max (depth item) (depthItems items)

def depthMembers : List (String × Value) → Nat
  | [] => 0
  | (_, value) :: members => max (depth value) (depthMembers members)

end

mutual

/-- Whether all parts pass a check, the whole included. -/
def all (p : Value → Bool) : Value → Bool
  | .list items => p (.list items) && allItems p items
  | .object members => p (.object members) && allMembers p members
  | v => p v

def allItems (p : Value → Bool) : List Value → Bool
  | [] => true
  | item :: items => all p item && allItems p items

def allMembers (p : Value → Bool) : List (String × Value) → Bool
  | [] => true
  | (_, value) :: members => all p value && allMembers p members

end

theorem depthItems_le_iff {items : List Value} {d : Nat} :
    depthItems items ≤ d ↔ ∀ v ∈ items, v.depth ≤ d := by
  induction items with
  | nil => simp [depthItems]
  | cons item items ih => simp [depthItems, ih]

theorem depthMembers_le_iff {members : List (String × Value)} {d : Nat} :
    depthMembers members ≤ d ↔ ∀ m ∈ members, m.2.depth ≤ d := by
  induction members with
  | nil => simp [depthMembers]
  | cons m members ih => simp [depthMembers, ih]

theorem depth_list_le_iff {items : List Value} {d : Nat} :
    (Value.list items).depth ≤ d ↔ ∃ inner, d = inner + 1 ∧ ∀ v ∈ items, v.depth ≤ inner := by
  rw [depth]
  cases d with
  | zero => simp
  | succ inner => simp [depthItems_le_iff]

theorem depth_object_le_iff {members : List (String × Value)} {d : Nat} :
    (Value.object members).depth ≤ d ↔
      ∃ inner, d = inner + 1 ∧ ∀ m ∈ members, m.2.depth ≤ inner := by
  rw [depth]
  cases d with
  | zero => simp
  | succ inner => simp [depthMembers_le_iff]

variable {p : Value → Bool}

theorem all_list_iff {items : List Value} :
    (Value.list items).all p = true ↔ p (.list items) = true ∧ ∀ v ∈ items, v.all p = true := by
  have hitems : allItems p items = true ↔ ∀ v ∈ items, v.all p = true := by
    induction items with
    | nil => simp [allItems]
    | cons item items ih => simp [allItems, ih]
  rw [all, Bool.and_eq_true, hitems]

theorem all_object_iff {members : List (String × Value)} :
    (Value.object members).all p = true ↔
      p (.object members) = true ∧ ∀ m ∈ members, m.2.all p = true := by
  have hmembers : allMembers p members = true ↔ ∀ m ∈ members, m.2.all p = true := by
    induction members with
    | nil => simp [allMembers]
    | cons m members ih => simp [allMembers, ih]
  rw [all, Bool.and_eq_true, hmembers]

/-- Whether the names of an object are in order, each of them once. -/
def ordered (members : List (String × Value)) : Bool :=
  decide ((members.map (·.1)).Pairwise (· < ·))

/-- Whether a part that is a number is written without loss: it is no floating point number, and fits
a word with or without a sign. -/
def isPlain : Value → Bool
  | .float _ => false
  | .int n => decide (-0x8000000000000000 ≤ n ∧ n < 0x10000000000000000)
  | _ => true

theorem all_isPlain_nat {n : Nat} (h : n < 0x10000000000000000) : (nat n).all isPlain = true := by
  simp only [nat, all, isPlain, decide_eq_true_eq]
  omega

/-- Whether a part comes back as it is when it has been written: as a number without loss, or as an
object with its names in order. -/
def isExact : Value → Bool
  | .object members => ordered members
  | v => v.isPlain

/-- What holds of all parts, as often as it implies the other, makes the other hold of all parts. -/
theorem all_of_all {q : Value → Bool} (h : ∀ v, p v = true → q v = true) {v : Value}
    (hv : v.all p = true) : v.all q = true := by
  induction v with
  | list items ih =>
    obtain ⟨hlist, hitems⟩ := all_list_iff.1 hv
    exact all_list_iff.2 ⟨h _ hlist, fun item hitem => ih item hitem (hitems item hitem)⟩
  | object members ih =>
    obtain ⟨hobject, hmembers⟩ := all_object_iff.1 hv
    exact all_object_iff.2 ⟨h _ hobject, fun m hm => ih m hm (hmembers m hm)⟩
  | _ => exact h _ hv

theorem all_isPlain {v : Value} (h : v.all isExact = true) : v.all isPlain = true :=
  all_of_all (fun v hv => by cases v <;> first | rfl | exact hv) h

theorem insert_of_forall_lt {name : String} (value : Value) {done : List (String × Value)}
    (h : ∀ m ∈ done, m.1 < name) : insert name value done = done ++ [(name, value)] := by
  induction done with
  | nil => rfl
  | cons m done ih =>
    obtain ⟨hm, hdone⟩ := List.forall_mem_cons.1 h
    rw [insert, if_neg hm.asymm, if_neg hm.ne', ih hdone, List.cons_append]

/-- Members that are in order behind those that are there are put at the end one by one. -/
theorem foldl_insert_of_pairwise {done rest : List (String × Value)}
    (hp : ((done ++ rest).map (·.1)).Pairwise (· < ·)) :
    rest.foldl (fun done m => insert m.1 m.2 done) done = done ++ rest := by
  induction rest generalizing done with
  | nil => simp
  | cons m rest ih =>
    have hlast : ∀ other ∈ done, other.1 < m.1 := by
      intro other hother
      rw [List.map_append, List.pairwise_append] at hp
      exact hp.2.2 other.1 (List.mem_map_of_mem hother) m.1 (by simp)
    have hp' : ((done ++ [m] ++ rest).map (·.1)).Pairwise (· < ·) := by
      rwa [List.append_assoc]
    rw [List.foldl_cons, insert_of_forall_lt m.2 hlast, ih hp', List.append_assoc,
      List.singleton_append]

theorem sorted_of_ordered {members : List (String × Value)} (h : ordered members = true) :
    sorted members = .object members := by
  have hp : (([] ++ members : List (String × Value)).map (·.1)).Pairwise (· < ·) :=
    of_decide_eq_true h
  rw [sorted]
  exact congrArg object (foldl_insert_of_pairwise hp)

end Value

end TraceJournal
