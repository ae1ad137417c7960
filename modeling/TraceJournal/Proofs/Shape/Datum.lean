import TraceJournal.Proofs.Shape.Rendering
import TraceJournal.Shape.Datum

/-!
# Buffered data from plain data

Plain data that is buffered and looked at only then says the same as before.
-/
namespace TraceJournal

namespace Datum

mutual

/-- Plain data as it is buffered; `nothing` stands for what is null. -/
def ofValue (nothing : Datum) : Value → Datum
  | .null => nothing
  | .bool b => .bool b
  | .int n => .int n
  | .float x => .float x
  | .text s => .text s
  | .list items => .list (ofItems nothing items)
  | .object members => .map (ofMembers nothing members)

def ofItems (nothing : Datum) : List Value → List Datum
  | [] => []
  | item :: items => ofValue nothing item :: ofItems nothing items

def ofMembers (nothing : Datum) : List (String × Value) → List (Datum × Datum)
  | [] => []
  | (name, value) :: members => (.text name, ofValue nothing value) :: ofMembers nothing members

end

variable {nothing : Datum}

theorem ofItems_eq_map (items : List Value) : ofItems nothing items = items.map (ofValue nothing) := by
  induction items with
  | nil => rfl
  | cons item items ih => rw [ofItems, ih, List.map_cons]

theorem ofMembers_eq_map (members : List (String × Value)) :
    ofMembers nothing members = members.map fun m => (.text m.1, ofValue nothing m.2) := by
  induction members with
  | nil => rfl
  | cons m members ih => rw [ofMembers, ih, List.map_cons]

theorem toValues_map {items : List Value}
    (h : ∀ v ∈ items, (ofValue nothing v).toValue = .ok v) :
    toValues (items.map (ofValue nothing)) = .ok items := by
  induction items with
  | nil => rfl
  | cons item items ih =>
    obtain ⟨hitem, hitems⟩ := List.forall_mem_cons.1 h
    rw [List.map_cons, toValues, hitem, ih hitems]
    rfl

theorem toMembers_map {members : List (String × Value)}
    (h : ∀ m ∈ members, (ofValue nothing m.2).toValue = .ok m.2) :
    toMembers (members.map fun m => (.text m.1, ofValue nothing m.2)) = .ok members := by
  induction members with
  | nil => rfl
  | cons m members ih =>
    obtain ⟨hm, hmembers⟩ := List.forall_mem_cons.1 h
    rw [List.map_cons, toMembers, ih hmembers, hm]
    rfl

/-- Data without floating point numbers and with its members in order comes out as it went in. -/
theorem toValue_ofValue (hnothing : nothing.toValue = .ok .null) {v : Value}
    (h : v.all Value.isExact = true) : (ofValue nothing v).toValue = .ok v := by
  induction v with
  | null => exact hnothing
  | bool b => rfl
  | int n => rfl
  | float x => simp [Value.all, Value.isExact, Value.isPlain] at h
  | text s => rfl
  | list items ih =>
    obtain ⟨-, hitems⟩ := Value.all_list_iff.1 h
    rw [ofValue, ofItems_eq_map, toValue, toValues_map fun v hv => ih v hv (hitems v hv)]
    rfl
  | object members ih =>
    obtain ⟨hordered, hmembers⟩ := Value.all_object_iff.1 h
    rw [ofValue, ofMembers_eq_map, toValue, toMembers_map fun m hm => ih m hm (hmembers m hm)]
    exact congrArg Except.ok (Value.sorted_of_ordered hordered)

theorem shows_ofValue : Shows fun _ => ofValue nothing where
  natural _ hn := if_pos ⟨Int.natCast_nonneg _, hn⟩
  boolean _ _ := rfl
  choice {_ _ known name} _ hfirst := by
    change variantNamed known name = _
    rw [variantNamed, hfirst]
  items items := by
    rw [ofValue, ofItems_eq_map]
    rfl
  compound {_ _ members} _ := by
    rw [ofValue, ofMembers_eq_map]
    simp only [Source.compound, compound, List.map_map]
    rfl

end Datum

end TraceJournal
