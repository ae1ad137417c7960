import TraceJournal.Proofs.Shape.Datum

/-!
# Members in any order

What a compound value is read as depends only on the values that stand under each declared name. Each
name has one value or, if its field may be missing, none. Members under other names, and the order of
all members, do not matter.
-/
namespace TraceJournal

/-- The values of the members under a name, in order. -/
def under {β : Type} (name : String) (members : List (String × β)) : List β :=
  members.filterMap fun m => if m.1 = name then some m.2 else none

section Under

variable {β : Type} {name : String}

theorem under_nil : under name ([] : List (String × β)) = [] := rfl

theorem under_cons_self (value : β) (members : List (String × β)) :
    under name ((name, value) :: members) = value :: under name members := by
  simp [under]

theorem under_cons_of_ne {m : String × β} (h : m.1 ≠ name) (members : List (String × β)) :
    under name (m :: members) = under name members := by
  simp [under, h]

theorem under_map {γ : Type} (f : β → γ) (members : List (String × β)) :
    under name (members.map fun m => (m.1, f m.2)) = (under name members).map f := by
  induction members with
  | nil => rfl
  | cons m members ih => by_cases h : m.1 = name <;> simp_all [under]

theorem under_filter {p : String × β → Bool} {members : List (String × β)}
    (h : ∀ m ∈ members, m.1 = name → p m = true) :
    under name (members.filter p) = under name members := by
  induction members with
  | nil => rfl
  | cons m members ih =>
    obtain ⟨hm, hmembers⟩ := List.forall_mem_cons.1 h
    by_cases hname : m.1 = name
    · rw [List.filter_cons_of_pos (hm hname)]
      subst hname
      rw [under_cons_self, under_cons_self, ih hmembers]
    · rw [under_cons_of_ne hname, ← ih hmembers]
      cases hp : p m with
      | true => rw [List.filter_cons_of_pos hp, under_cons_of_ne hname]
      | false => rw [List.filter_cons_of_neg (by simp [hp])]

end Under

/-- What stands for a field that is missing among named members. -/
def Presence.default? {α : Type} : Presence α → Option α
  | .required => none
  | .defaulted value | .nullable value => some value

namespace Fields

variable {ν : Type}

/-- What the values under the name of a field give: a single one is read, and without any the default
stands. -/
inductive Gives {α : Type} (presence : Presence α) (read : ν → Except ReadFault α) :
    List ν → α → Prop
  | one {source : ν} {value : α} (h : read source = .ok value) : Gives presence read [source] value
  | default {value : α} (h : presence.default? = some value) : Gives presence read [] value

/-- The members give every field its value. -/
def Given : {αs : List Type} → Fields ν αs → List (String × ν) → Values αs → Prop
  | _, nil, _, _ => True
  | _, cons name presence read rest, members, (value, values) =>
    Gives presence read (under name members) value ∧ rest.Given members values

/-- How the values under a name fill a slot: each of them is read, and finds the slot empty. -/
def Fills {α : Type} (read : ν → Except ReadFault α) : Option α → List ν → Option α → Prop
  | slot, [], filled => slot = filled
  | slot, source :: sources, filled =>
    slot = none ∧ ∃ value, read source = .ok value ∧ Fills read (some value) sources filled

variable {α : Type} {read : ν → Except ReadFault α}

theorem fills_some_iff {value : α} {sources : List ν} {filled : Option α} :
    Fills read (some value) sources filled ↔ sources = [] ∧ filled = some value := by
  cases sources with
  | nil => simp [Fills, eq_comm]
  | cons => simp [Fills]

theorem fills_none_iff {sources : List ν} {filled : Option α} :
    Fills read none sources filled ↔ (sources = [] ∧ filled = none) ∨
      ∃ source value, sources = [source] ∧ read source = .ok value ∧ filled = some value := by
  cases sources with
  | nil => simp [Fills, eq_comm]
  | cons source sources =>
    simp only [Fills, fills_some_iff, List.cons.injEq, reduceCtorEq, false_and, false_or, true_and]
    constructor
    · rintro ⟨value, hread, hnone, hfilled⟩
      exact ⟨source, value, ⟨rfl, hnone⟩, hread, hfilled⟩
    · rintro ⟨_, value, ⟨rfl, hnone⟩, hread, hfilled⟩
      exact ⟨value, hread, hnone, hfilled⟩

def shown (members : List (String × ν)) : List (Except ReadFault Key × ν) :=
  members.map fun m => (.ok (.name m.1), m.2)

variable {αs : List Type}

theorem store_cons_self (name : String) (presence : Presence α) (rest : Fields ν αs) (source : ν)
    (slots : Slots αs) :
    (cons name presence read rest).store (.name name) source (none, slots) =
      some ((read source).map fun value => (some value, slots)) := by
  simp [store, selects]

/-- A slot is not filled twice. -/
theorem store_cons_self_of_filled (name : String) (presence : Presence α) (rest : Fields ν αs)
    (source : ν) (value : α) (slots : Slots αs) :
    (cons name presence read rest).store (.name name) source (some value, slots) =
      some (wrongShape (.duplicateField name)) := by
  simp [store, selects]

theorem store_eq_none {name : String} {source : ν} {fields : Fields ν αs} (h : name ∉ fields.names)
    (slots : Slots αs) : fields.store (.name name) source slots = none := by
  induction fields with
  | nil => rfl
  | cons other presence read rest ih =>
    rcases slots with ⟨slot, slots⟩
    rw [names, List.mem_cons, not_or] at h
    rw [store_cons_of_ne h.1, ih h.2, Option.map_none]

variable [Source ν]

theorem readMembers_of_store_eq_none {fields : Fields ν αs} {m : String × ν} {slots : Slots αs}
    (h : fields.store (.name m.1) m.2 slots = none) (hskip : Source.skip m.2 = .ok ())
    (members : List (String × ν)) :
    fields.readMembers false (shown (m :: members)) slots =
      fields.readMembers false (shown members) slots := by
  simp [shown, readMembers, h, hskip, bind, Except.bind]

theorem readMembers_of_store_eq_some {fields : Fields ν αs} {m : String × ν} {slots : Slots αs}
    {stored : Except ReadFault (Slots αs)} (h : fields.store (.name m.1) m.2 slots = some stored)
    (members : List (String × ν)) :
    fields.readMembers false (shown (m :: members)) slots =
      stored >>= fields.readMembers false (shown members) := by
  simp [shown, readMembers, h, bind, Except.bind]

/-- The first field is read from the members under its name, and the others from all members. -/
theorem readMembers_cons_iff {name : String} {presence : Presence α} {rest : Fields ν αs}
    (hname : name ∉ rest.names) {members : List (String × ν)}
    (hskip : ∀ m ∈ members, Source.skip m.2 = .ok ()) {slot filled : Option α}
    {slots slots' : Slots αs} :
    (cons name presence read rest).readMembers false (shown members) (slot, slots) =
        .ok (filled, slots') ↔
      Fills read slot (under name members) filled ∧
        rest.readMembers false (shown members) slots = .ok slots' := by
  induction members generalizing slot slots with
  | nil => simp [shown, readMembers, under_nil, Fills]
  | cons m members ih =>
    obtain ⟨hm, hmembers⟩ := List.forall_mem_cons.1 hskip
    rcases m with ⟨text, source⟩
    by_cases htext : text = name
    · -- Only the first field knows the name, so the others pass over the member.
      subst htext
      have hrest := readMembers_of_store_eq_none (m := (text, source)) (store_eq_none hname slots) hm
        members
      rw [hrest, under_cons_self, Fills]
      cases slot with
      | some value =>
        rw [readMembers_of_store_eq_some (m := (text, source)) (store_cons_self_of_filled ..)]
        simp [wrongShape, bind, Except.bind]
      | none =>
        rw [readMembers_of_store_eq_some (m := (text, source)) (store_cons_self ..)]
        cases hread : read source with
        | error fault => simp [bind, Except.bind, Except.map]
        | ok value => simp [bind, Except.bind, Except.map, ih hmembers]
    · have hstore := store_cons_of_ne htext presence read rest source slot slots
      rw [under_cons_of_ne htext]
      cases hrest : rest.store (.name text) source slots with
      | none =>
        rw [hrest, Option.map_none] at hstore
        rw [readMembers_of_store_eq_none (m := (text, source)) hstore hm, ih hmembers,
          readMembers_of_store_eq_none (m := (text, source)) hrest hm]
      | some stored =>
        rw [hrest, Option.map_some] at hstore
        rw [readMembers_of_store_eq_some (m := (text, source)) hstore,
          readMembers_of_store_eq_some (m := (text, source)) hrest]
        cases stored with
        | error fault => simp [bind, Except.bind, Except.map]
        | ok slots'' => exact ih hmembers

omit [Source ν] in
theorem complete_cons_iff {name : String} {presence : Presence α} {rest : Fields ν αs}
    {slot : Option α} {slots : Slots αs} {value : α} {values : Values αs} :
    (cons name presence read rest).complete (slot, slots) = .ok (value, values) ↔
      slot.or presence.default? = some value ∧ rest.complete slots = .ok values := by
  have hrest (first : α) : (do return (first, ← rest.complete slots) : Except ReadFault _) =
      .ok (value, values) ↔ first = value ∧ rest.complete slots = .ok values := by
    cases rest.complete slots <;> simp [bind, Except.bind, pure, Except.pure]
  cases slot with
  | some first =>
    rw [Option.some_or, Option.some_inj]
    exact hrest first
  | none =>
    rw [Option.none_or]
    cases presence with
    | required => simp [complete, wrongShape, Presence.default?, bind, Except.bind]
    | defaulted first =>
      rw [Presence.default?, Option.some_inj]
      exact hrest first
    | nullable first =>
      rw [Presence.default?, Option.some_inj]
      exact hrest first

omit [Source ν] in
theorem gives_iff {presence : Presence α} {sources : List ν} {value : α} :
    Gives presence read sources value ↔
      ∃ slot, Fills read none sources slot ∧ slot.or presence.default? = some value := by
  simp only [fills_none_iff]
  constructor
  · rintro (hread | hdefault)
    · exact ⟨some value, .inr ⟨_, value, rfl, hread, rfl⟩, rfl⟩
    · exact ⟨none, .inl ⟨rfl, rfl⟩, hdefault⟩
  · rintro ⟨slot, ⟨rfl, rfl⟩ | ⟨source, first, rfl, hread, rfl⟩, hvalue⟩
    · exact .default hvalue
    · rw [Option.some_or, Option.some_inj] at hvalue
      exact .one (hvalue ▸ hread)

theorem readMembers_nil {members : List (String × ν)}
    (hskip : ∀ m ∈ members, Source.skip m.2 = .ok ()) :
    (nil : Fields ν []).readMembers false (shown members) () = .ok () := by
  induction members with
  | nil => rfl
  | cons m members ih =>
    obtain ⟨hm, hmembers⟩ := List.forall_mem_cons.1 hskip
    rw [readMembers_of_store_eq_none rfl hm, ih hmembers]

/-- Members are read as the values that they give, and as nothing else. -/
theorem readMembers_iff_given {fields : Fields ν αs} (hnames : fields.names.Nodup)
    {members : List (String × ν)} (hskip : ∀ m ∈ members, Source.skip m.2 = .ok ())
    {values : Values αs} :
    (fields.readMembers false (shown members) fields.blank >>= fields.complete) = .ok values ↔
      fields.Given members values := by
  induction fields with
  | nil => simp [Given, blank, complete, readMembers_nil hskip, bind, Except.bind]
  | cons name presence read rest ih =>
    rcases values with ⟨value, values⟩
    obtain ⟨hname, hrest⟩ := List.nodup_cons.1 hnames
    rw [Given, gives_iff, ← ih hrest, bind_eq_ok_iff, bind_eq_ok_iff, Prod.exists]
    simp only [blank, readMembers_cons_iff hname hskip]
    constructor
    · rintro ⟨slot, slots, ⟨hfills, hslots⟩, hcomplete⟩
      obtain ⟨hvalue, hvalues⟩ := complete_cons_iff.1 hcomplete
      exact ⟨⟨slot, hfills, hvalue⟩, slots, hslots, hvalues⟩
    · rintro ⟨⟨slot, hfills, hvalue⟩, slots, hslots, hvalues⟩
      exact ⟨slot, slots, ⟨hfills, hslots⟩, complete_cons_iff.2 ⟨hvalue, hvalues⟩⟩

theorem read_iff_given {fields : Fields ν αs} (hnames : fields.names.Nodup) {title : String}
    {source : ν} {members : List (String × ν)} (hskip : ∀ m ∈ members, Source.skip m.2 = .ok ())
    (hcompound : Source.compound title source = .ok (.named (shown members) none))
    {values : Values αs} :
    fields.read title false source = .ok values ↔ fields.Given members values := by
  rw [← readMembers_iff_given hnames hskip, read, hcompound]
  rfl

omit [Source ν]

def required : {αs : List Type} → Fields ν αs → List String
  | _, nil => []
  | _, cons name .required _ rest => name :: rest.required
  | _, cons _ _ _ rest => rest.required

theorem Gives.length_le {presence : Presence α} {sources : List ν} {value : α}
    (h : Gives presence read sources value) : sources.length ≤ 1 := by
  cases h <;> simp

theorem Gives.length_eq {sources : List ν} {value : α} (h : Gives .required read sources value) :
    sources.length = 1 := by
  cases h with
  | one => rfl
  | default h => cases h

theorem Given.length_under_le {fields : Fields ν αs} {members : List (String × ν)}
    {values : Values αs} (h : fields.Given members values) :
    ∀ name ∈ fields.names, (under name members).length ≤ 1 := by
  induction fields with
  | nil => simp [names]
  | cons first presence read rest ih => exact List.forall_mem_cons.2 ⟨h.1.length_le, ih h.2⟩

theorem Given.length_under_eq {fields : Fields ν αs} {members : List (String × ν)}
    {values : Values αs} (h : fields.Given members values) :
    ∀ name ∈ fields.required, (under name members).length = 1 := by
  induction fields with
  | nil => simp [required]
  | cons first presence read rest ih =>
    cases presence with
    | required => exact List.forall_mem_cons.2 ⟨h.1.length_eq, ih h.2⟩
    | _ => exact ih h.2

end Fields

namespace Datum

variable {nothing : Datum} {αs : List Type} {fields : Fields Datum αs} {title : String}
  {members : List (String × Value)} {values : Values αs}

theorem read_iff_given (hnames : fields.names.Nodup) :
    fields.read title false (.map (ofMembers nothing members)) = .ok values ↔
      fields.Given (members.map fun m => (m.1, ofValue nothing m.2)) values := by
  refine Fields.read_iff_given hnames (fun _ _ => rfl) ?_
  rw [ofMembers_eq_map, Fields.shown, List.map_map]
  simp only [Source.compound, compound, List.map_map]
  rfl

/-- Members that can be read name no declared field twice. -/
theorem length_under_le (hnames : fields.names.Nodup)
    (h : fields.read title false (.map (ofMembers nothing members)) = .ok values) :
    ∀ name ∈ fields.names, (under name members).length ≤ 1 := by
  have hgiven := (read_iff_given hnames).1 h
  simpa only [under_map, List.length_map] using hgiven.length_under_le

/-- Members that can be read name every field that may not be missing. -/
theorem length_under_eq (hnames : fields.names.Nodup)
    (h : fields.read title false (.map (ofMembers nothing members)) = .ok values) :
    ∀ name ∈ fields.required, (under name members).length = 1 := by
  have hgiven := (read_iff_given hnames).1 h
  simpa only [under_map, List.length_map] using hgiven.length_under_eq

end Datum

end TraceJournal
