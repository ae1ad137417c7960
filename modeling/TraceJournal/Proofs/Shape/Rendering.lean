import TraceJournal.Record.Form
import TraceJournal.Proofs.Except
import TraceJournal.Proofs.Value
import Mathlib.Tactic.SplitIfs

/-!
# Reading what shows plain data

A source that shows plain data, whatever the format, is read as the value that the data was made of.
For compound values this rests on one fact: members under the declared names, each read as a value
of its field, are read as these values.
-/
namespace TraceJournal

namespace Fields

variable {ν : Type}

/-- Members under the names of the fields, in declared order, with the values that they are read as.
Every field has a name of its own. -/
inductive Spells : {αs : List Type} → Fields ν αs → List (Except ReadFault Key × ν) →
    Values αs → Prop
  | nil : Spells .nil [] ()
  | cons {α : Type} {αs : List Type} {name : String} {presence : Presence α}
      {read : ν → Except ReadFault α} {rest : Fields ν αs} {source : ν} {value : α}
      {members : List (Except ReadFault Key × ν)} {values : Values αs}
      (hname : name ∉ rest.names) (hread : read source = .ok value)
      (hrest : Spells rest members values) :
      Spells (.cons name presence read rest) ((.ok (.name name), source) :: members) (value, values)

def filled : {αs : List Type} → Values αs → Slots αs
  | [], _ => ()
  | _ :: _, (value, values) => (some value, filled values)

theorem complete_filled {αs : List Type} (fields : Fields ν αs) (values : Values αs) :
    fields.complete (filled values) = .ok values := by
  induction fields with
  | nil => rfl
  | cons name presence read rest ih =>
    rcases values with ⟨value, values⟩
    simp [complete, filled, ih, bind, Except.bind, pure, Except.pure]

theorem Spells.names_eq {αs : List Type} {fields : Fields ν αs} {values : Values αs}
    {members : List (Except ReadFault Key × ν)} (h : fields.Spells members values) :
    ∀ m ∈ members, ∃ text, m.1 = .ok (.name text) ∧ text ∈ fields.names := by
  induction h with
  | nil => simp
  | @cons _ _ name _ _ _ _ _ _ _ hname hread hrest ih =>
    rw [List.forall_mem_cons]
    refine ⟨⟨name, rfl, List.mem_cons_self⟩, fun m hm => ?_⟩
    obtain ⟨text, hkey, htext⟩ := ih m hm
    exact ⟨text, hkey, List.mem_cons_of_mem _ htext⟩

variable {αs : List Type}

theorem store_cons_of_ne {α : Type} {name text : String} (h : text ≠ name) (presence : Presence α)
    (read : ν → Except ReadFault α) (rest : Fields ν αs) (source : ν) (slot : Option α)
    (slots : Slots αs) :
    (Fields.cons name presence read rest).store (.name text) source (slot, slots) =
      (rest.store (.name text) source slots).map (·.map fun slots => (slot, slots)) := by
  have hselects : selects name (.name text) = false := beq_eq_false_iff_ne.2 h
  simp [store, hselects, next]

variable [Source ν]

theorem readMembers_cons_of_ne {α : Type} {name : String} (presence : Presence α)
    (read : ν → Except ReadFault α) {rest : Fields ν αs} {strict : Bool}
    {members : List (Except ReadFault Key × ν)} {slots slots' : Slots αs} (slot : Option α)
    (hne : ∀ m ∈ members, ∃ text, m.1 = .ok (.name text) ∧ text ≠ name)
    (h : rest.readMembers strict members slots = .ok slots') :
    (Fields.cons name presence read rest).readMembers strict members (slot, slots) =
      .ok (slot, slots') := by
  induction members generalizing slots with
  | nil =>
    cases h
    rfl
  | cons m members ih =>
    rcases m with ⟨key, source⟩
    obtain ⟨⟨text, hkey, hother⟩, hmembers⟩ := List.forall_mem_cons.1 hne
    dsimp only at hkey
    subst hkey
    have hstore := store_cons_of_ne hother presence read rest source slot slots
    rw [readMembers] at h ⊢
    simp only [bind, Except.bind] at h ⊢
    rw [hstore]
    cases hs : rest.store (.name text) source slots with
    | none =>
      rw [hs] at h
      cases strict with
      | true => simp [wrongShape] at h
      | false =>
        simp only [Option.map_none] at h ⊢
        cases hskip : (Source.skip source : Except ReadFault Unit) with
        | error fault => simp [hskip] at h
        | ok _ =>
          rw [hskip] at h
          exact ih hmembers h
    | some stored =>
      rw [hs] at h
      cases stored with
      | error fault => simp at h
      | ok slots'' => exact ih hmembers h

/-- Members under the declared names fill all fields. -/
theorem Spells.readMembers_eq {fields : Fields ν αs}
    {members : List (Except ReadFault Key × ν)} {values : Values αs}
    (h : fields.Spells members values) (strict : Bool) :
    fields.readMembers strict members fields.blank = .ok (filled values) := by
  induction h with
  | nil => rfl
  | @cons α αs name presence read rest source value members values hname hread hrest ih =>
    have hstore : (Fields.cons name presence read rest).store (.name name) source
        (none, rest.blank) = some (.ok (some value, rest.blank)) := by
      simp [store, selects, hread, Except.map]
    have hne : ∀ m ∈ members, ∃ text, m.1 = .ok (.name text) ∧ text ≠ name := by
      intro m hm
      obtain ⟨text, hkey, htext⟩ := hrest.names_eq m hm
      exact ⟨text, hkey, fun he => hname (he ▸ htext)⟩
    have hothers := readMembers_cons_of_ne presence read (some value) hne ih
    rw [blank, readMembers]
    simp only [bind, Except.bind, hstore]
    exact hothers

end Fields

/-- Names of members and choices that every format can read are no longer than this, in bytes. -/
def maxShown : Nat := 4096

/-- A way of making sources that show plain data, with some levels of depth left to open. -/
structure Shows {ν : Type} [Source ν] (render : Nat → Value → ν) : Prop where
  natural : ∀ {depth bits n : Nat}, bits ≤ 64 → n < Nat.pow 2 bits →
    Source.natural bits (render depth (.nat n)) = .ok n
  boolean : ∀ (depth : Nat) (b : Bool), Source.boolean (render depth (.bool b)) = .ok b
  choice : ∀ {depth n : Nat} {known : List String} {name : String},
    name.utf8ByteSize ≤ maxShown → known.findIdx? (· == name) = some n →
      Source.choice known (render (depth + 1) (.text name)) = .ok n
  items : ∀ {depth : Nat} (items : List Value), Source.items (render (depth + 1) (.list items)) =
    .ok ⟨items.map (render depth), none⟩
  compound : ∀ {depth : Nat} {title : String} {members : List (String × Value)},
    (members.all fun m => m.1.utf8ByteSize ≤ maxShown) = true →
      Source.compound title (render (depth + 1) (.object members)) =
        .ok (.named (members.map fun m => (.ok (.name m.1), render depth m.2)) none)

namespace Shows

variable {ν : Type} [Source ν] {render : Nat → Value → ν} (h : Shows render)

include h

theorem uint8 (depth : Nat) (n : UInt8) : Source.uint8 (render depth (.nat n.toNat)) = .ok n := by
  rw [Source.uint8, map_eq_ok _ (h.natural (by decide) n.toNat_lt), UInt8.ofNat_toNat]

theorem uint16 (depth : Nat) (n : UInt16) :
    Source.uint16 (render depth (.nat n.toNat)) = .ok n := by
  rw [Source.uint16, map_eq_ok _ (h.natural (by decide) n.toNat_lt), UInt16.ofNat_toNat]

theorem uint32 (depth : Nat) (n : UInt32) :
    Source.uint32 (render depth (.nat n.toNat)) = .ok n := by
  rw [Source.uint32, map_eq_ok _ (h.natural (by decide) n.toNat_lt), UInt32.ofNat_toNat]

theorem list {α : Type} {read : ν → Except ReadFault α} {toValue : α → Value} {depth : Nat}
    {values : List α} (hread : ∀ a ∈ values, read (render depth (toValue a)) = .ok a) :
    Source.list read (render (depth + 1) (.list (values.map toValue))) = .ok values := by
  have hvalues : ((values.map toValue).map (render depth)).mapM read = .ok values := by
    rw [List.map_map]
    exact mapM_map_eq_ok hread
  simp only [Source.list, h.items, bind, Except.bind, hvalues]
  rfl

theorem oneOf {α : Type} {all : List α} {name : α → String} {n : Nat} {value : α}
    (hshort : (name value).utf8ByteSize ≤ maxShown) (hall : all[n]? = some value)
    (hfirst : (all.map name).findIdx? (· == name value) = some n) (depth : Nat) :
    Source.oneOf all name (render (depth + 1) (.text (name value))) = .ok value := by
  simp [Source.oneOf, h.choice hshort hfirst, hall, bind, Except.bind]

theorem kind (depth : Nat) (k : Kind) :
    Kind.read (render (depth + 1) (.text k.name)) = .ok k := by
  have hall : Kind.all[k.tag.toNat]? = some k := by cases k <;> rfl
  have hfirst : (Kind.all.map Kind.name).findIdx? (· == k.name) = some k.tag.toNat := by
    cases k <;> decide
  exact h.oneOf (by cases k <;> decide) hall hfirst depth

theorem fields {αs : List Type} {fields : Fields ν αs} (depth : Nat)
    {members : List (String × Value)} {values : Values αs}
    (hshort : (members.all fun m => m.1.utf8ByteSize ≤ maxShown) = true)
    (hspells : fields.Spells (members.map fun m => (.ok (.name m.1), render depth m.2)) values)
    (title : String) (strict : Bool) :
    fields.read title strict (render (depth + 1) (.object members)) = .ok values := by
  simp [Fields.read, h.compound hshort, hspells.readMembers_eq, Fields.complete_filled, bind,
    Except.bind]

theorem time (depth : Nat) (t : TimeTag) : TimeTag.read (render (depth + 1) t.toValue) = .ok t := by
  have hspells : TimeTag.fields.Spells _ (t.base, t.context, t.seconds, t.useconds, ()) :=
    .cons (by simp [Fields.names]) (h.uint16 depth t.base) <|
    .cons (by simp [Fields.names]) (h.uint8 depth t.context) <|
    .cons (by simp [Fields.names]) (h.uint32 depth t.seconds) <|
    .cons (by simp [Fields.names]) (h.uint32 depth t.useconds) .nil
  rw [TimeTag.read, TimeTag.toValue, h.fields depth rfl hspells]
  rfl

theorem record (depth : Nat) (r : Record) : Record.read (render (depth + 2) r.toValue) = .ok r := by
  have hspells : Record.inputs.Spells _ (r.id, r.time, r.kind, r.payload, ()) :=
    .cons (by simp [Fields.names]) (h.uint32 (depth + 1) r.id) <|
    .cons (by simp [Fields.names]) (h.time depth r.time) <|
    .cons (by simp [Fields.names]) (h.kind depth r.kind) <|
    .cons (by simp [Fields.names]) (h.list fun b _ => h.uint8 depth b) .nil
  rw [Record.read, Record.toValue, h.fields (depth + 1) rfl hspells]
  rfl

end Shows

end TraceJournal
