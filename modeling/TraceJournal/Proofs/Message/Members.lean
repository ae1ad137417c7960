import TraceJournal.Proofs.Message.Form
import TraceJournal.Proofs.Shape.Members

/-!
# Messages by their members

When the members of an object say a message: each member that belongs to it stands there once, in
whatever order and whatever else is there. Only the payload of a trace may be missing. Such members
are read as the message, and members of which one is missing or stands twice are read as none.
-/
namespace TraceJournal

/-- Members that say a time, in any order and among others. -/
structure TimeTag.DescribedBy (t : TimeTag) (members : List (String × Value)) : Prop where
  base : under "base" members = [.nat t.base.toNat]
  context : under "context" members = [.nat t.context.toNat]
  seconds : under "seconds" members = [.nat t.seconds.toNat]
  useconds : under "useconds" members = [.nat t.useconds.toNat]

/-- Members that say a record. Where no payload is named it is empty. -/
structure Record.DescribedBy (r : Record) (members : List (String × Value)) : Prop where
  id : under "id" members = [.nat r.id.toNat]
  time : ∃ inner, under "time" members = [.object inner] ∧ r.time.DescribedBy inner
  kind : under "kind" members = [.text r.kind.name]
  payload : under "payload" members = [.list (r.payload.map fun b => .nat b.toNat)] ∨
    under "payload" members = [] ∧ r.payload = []

namespace Message

def FieldsDescribedBy (members : List (String × Value)) : Message → Prop
  | trace record => record.DescribedBy members
  | enableTrace opcode seq enable => under "opcode" members = [.nat opcode.toNat] ∧
    under "seq" members = [.nat seq.toNat] ∧ under "enable" members = [.bool enable]
  | dumpTrace opcode seq => under "opcode" members = [.nat opcode.toNat] ∧
    under "seq" members = [.nat seq.toNat]

/-- Members that say a message, in any order and among others. -/
structure DescribedBy (m : Message) (members : List (String × Value)) : Prop where
  tag : under MessageTag.member members = [.text m.tag.name]
  fields : m.FieldsDescribedBy members

end Message

def TimeTag.fieldNames : List String := ["base", "context", "seconds", "useconds"]

/-- The names of the members that belong to a message with this tag. -/
def MessageTag.fieldNames : MessageTag → List String
  | trace => ["id", "time", "kind", "payload"]
  | enableTrace => ["opcode", "seq", "enable"]
  | dumpTrace => ["opcode", "seq"]

/-- Members that are those of no message: the tag, or something that belongs to a message with this
tag, is missing or stands more than once. -/
inductive Message.Miscounted (members : List (String × Value)) : Prop
  | tag (h : (under MessageTag.member members).length ≠ 1)
  | missing {tag : MessageTag} (htag : under MessageTag.member members = [.text tag.name])
      {name : String} (hname : name ∈ tag.fieldNames) (hpayload : name ≠ "payload")
      (h : under name members = [])
  | repeated {tag : MessageTag} (htag : under MessageTag.member members = [.text tag.name])
      {name : String} (hname : name ∈ tag.fieldNames) (h : 2 ≤ (under name members).length)
  | time (htag : under MessageTag.member members = [.text MessageTag.trace.name])
      {inner : List (String × Value)} (htime : under "time" members = [.object inner])
      {name : String} (hname : name ∈ TimeTag.fieldNames) (h : (under name inner).length ≠ 1)

section Reading

open Datum (ofValue ofMembers)

variable {nothing : Datum} {members : List (String × Value)}

theorem gives_of_under {α : Type} {presence : Presence α} {read : Datum → Except ReadFault α}
    {name : String} {v : Value} {value : α} (h : under name members = [v])
    (hread : read (ofValue nothing v) = .ok value) :
    Fields.Gives presence read (under name (members.map fun m => (m.1, ofValue nothing m.2))) value := by
  rw [under_map, h]
  exact .one hread

theorem TimeTag.read_of_describedBy {t : TimeTag} (h : t.DescribedBy members) :
    TimeTag.read (ofValue nothing (.object members)) = .ok t := by
  have hshows : Shows fun _ => ofValue nothing := Datum.shows_ofValue
  have hgiven : TimeTag.fields.Given (members.map fun m => (m.1, ofValue nothing m.2))
      (t.base, t.context, t.seconds, t.useconds, ()) :=
    ⟨gives_of_under h.base (hshows.uint16 0 t.base), gives_of_under h.context (hshows.uint8 0 t.context),
      gives_of_under h.seconds (hshows.uint32 0 t.seconds),
      gives_of_under h.useconds (hshows.uint32 0 t.useconds), trivial⟩
  rw [TimeTag.read, ofValue, (Datum.read_iff_given (by decide)).2 hgiven]
  rfl

theorem Record.read_of_describedBy {r : Record} (h : r.DescribedBy members) :
    Record.read (ofValue nothing (.object members)) = .ok r := by
  have hshows : Shows fun _ => ofValue nothing := Datum.shows_ofValue
  obtain ⟨inner, htime, hinner⟩ := h.time
  have hpayload : Fields.Gives (.defaulted []) (Source.list Source.uint8)
      (under "payload" (members.map fun m => (m.1, ofValue nothing m.2))) r.payload := by
    obtain hlist | ⟨hnone, hempty⟩ := h.payload
    · exact gives_of_under hlist (@Shows.list _ _ _ hshows _ _ _ 0 _ fun b _ => hshows.uint8 0 b)
    · rw [under_map, hnone, hempty]
      exact .default rfl
  have hgiven : Record.inputs.Given (members.map fun m => (m.1, ofValue nothing m.2))
      (r.id, r.time, r.kind, r.payload, ()) :=
    ⟨gives_of_under h.id (hshows.uint32 0 r.id),
      gives_of_under htime (TimeTag.read_of_describedBy hinner),
      gives_of_under h.kind (hshows.kind 0 r.kind), hpayload, trivial⟩
  rw [Record.read, ofValue, (Datum.read_iff_given (by decide)).2 hgiven]
  rfl

theorem Message.ofFields_of_describedBy {m : Message} (h : m.FieldsDescribedBy members) :
    ofFields m.tag (ofValue nothing (.object members)) = .ok m := by
  have hshows : Shows fun _ => ofValue nothing := Datum.shows_ofValue
  cases m with
  | trace record => exact map_eq_ok trace (Record.read_of_describedBy h)
  | enableTrace opcode seq enable =>
    obtain ⟨hopcode, hseq, henable⟩ := h
    have hgiven : enableTraceFields.Given (members.map fun m => (m.1, ofValue nothing m.2))
        (opcode, seq, enable, ()) :=
      ⟨gives_of_under hopcode (hshows.uint32 0 opcode), gives_of_under hseq (hshows.uint32 0 seq),
        gives_of_under henable (hshows.boolean 0 enable), trivial⟩
    rw [tag, ofFields, ofValue, (Datum.read_iff_given (by decide)).2 hgiven]
    rfl
  | dumpTrace opcode seq =>
    obtain ⟨hopcode, hseq⟩ := h
    have hgiven : dumpTraceFields.Given (members.map fun m => (m.1, ofValue nothing m.2))
        (opcode, seq, ()) :=
      ⟨gives_of_under hopcode (hshows.uint32 0 opcode), gives_of_under hseq (hshows.uint32 0 seq),
        trivial⟩
    rw [tag, ofFields, ofValue, (Datum.read_iff_given (by decide)).2 hgiven]
    rfl

theorem TimeTag.length_under {t : TimeTag}
    (h : TimeTag.read (ofValue nothing (.object members)) = .ok t) :
    ∀ name ∈ TimeTag.fieldNames, (under name members).length = 1 := by
  obtain ⟨values, hread, -⟩ := bind_eq_ok_iff.1 h
  exact Datum.length_under_eq (by decide) hread

/-- Members that are read as a record name each of its fields once, the payload at most once. -/
theorem Record.length_under {r : Record} (h : Record.read (ofValue nothing (.object members)) = .ok r) :
    (∀ name ∈ MessageTag.trace.fieldNames, (under name members).length ≤ 1) ∧
      ∀ name ∈ ["id", "time", "kind"], (under name members).length = 1 := by
  obtain ⟨values, hread, -⟩ := bind_eq_ok_iff.1 h
  exact ⟨Datum.length_under_le (by decide) hread, Datum.length_under_eq (by decide) hread⟩

theorem Record.time_of_read {r : Record} (h : Record.read (ofValue nothing (.object members)) = .ok r)
    {v : Value} (htime : under "time" members = [v]) :
    TimeTag.read (ofValue nothing v) = .ok r.time := by
  obtain ⟨⟨id, time, kind, payload, ⟨⟩⟩, hread, hr⟩ := bind_eq_ok_iff.1 h
  cases hr
  obtain ⟨-, htimes, -⟩ := (Datum.read_iff_given (by decide)).1 hread
  rw [under_map, htime] at htimes
  cases htimes with
  | one h => exact h

theorem Message.length_under {tag : MessageTag} {m : Message}
    (h : ofFields tag (ofValue nothing (.object members)) = .ok m) :
    ∀ name ∈ tag.fieldNames, (under name members).length ≤ 1 ∧
      (name ≠ "payload" → (under name members).length = 1) := by
  cases tag with
  | trace =>
    obtain ⟨r, hread, -⟩ := map_eq_ok_iff.1 h
    obtain ⟨hle, heq⟩ := Record.length_under hread
    intro name hname
    refine ⟨hle name hname, fun hne => heq name ?_⟩
    simpa [MessageTag.fieldNames, hne] using hname
  | enableTrace =>
    obtain ⟨values, hread, -⟩ := bind_eq_ok_iff.1 h
    have heq := Datum.length_under_eq (by decide) hread
    exact fun name hname => ⟨(heq name hname).le, fun _ => heq name hname⟩
  | dumpTrace =>
    obtain ⟨values, hread, -⟩ := bind_eq_ok_iff.1 h
    have heq := Datum.length_under_eq (by decide) hread
    exact fun name hname => ⟨(heq name hname).le, fun _ => heq name hname⟩

/-- What members say depends on what stands under the declared names. -/
theorem Message.FieldsDescribedBy.congr {m : Message} {members' : List (String × Value)}
    (h : ∀ name ∈ m.tag.fieldNames, under name members' = under name members)
    (hm : m.FieldsDescribedBy members) : m.FieldsDescribedBy members' := by
  cases m with
  | trace record =>
    obtain ⟨hid, htime, hkind, hpayload, -⟩ : _ ∧ _ ∧ _ ∧ _ ∧ _ := by
      simpa only [tag, MessageTag.fieldNames, List.forall_mem_cons] using h
    exact ⟨hid ▸ hm.id, htime ▸ hm.time, hkind ▸ hm.kind, hpayload ▸ hm.payload⟩
  | enableTrace opcode seq enable =>
    obtain ⟨hopcode, hseq, henable, -⟩ : _ ∧ _ ∧ _ ∧ _ := by
      simpa only [tag, MessageTag.fieldNames, List.forall_mem_cons] using h
    exact ⟨hopcode ▸ hm.1, hseq ▸ hm.2.1, henable ▸ hm.2.2⟩
  | dumpTrace opcode seq =>
    obtain ⟨hopcode, hseq, -⟩ : _ ∧ _ ∧ _ := by
      simpa only [tag, MessageTag.fieldNames, List.forall_mem_cons] using h
    exact ⟨hopcode ▸ hm.1, hseq ▸ hm.2⟩

def Message.besidesTag (members : List (String × Value)) : List (String × Value) :=
  members.filter fun m => m.1 ≠ MessageTag.member

theorem MessageTag.ne_member {tag : MessageTag} {name : String} (h : name ∈ tag.fieldNames) :
    name ≠ MessageTag.member := by
  rintro rfl
  revert h
  cases tag <;> decide

theorem Message.under_besidesTag {tag : MessageTag} {name : String} (h : name ∈ tag.fieldNames)
    (members : List (String × Value)) : under name (besidesTag members) = under name members := by
  refine under_filter fun m _ hm => ?_
  rw [hm]
  exact decide_eq_true (MessageTag.ne_member h)

theorem MessageTag.name_inj {tag tag' : MessageTag} (h : tag.name = tag'.name) : tag = tag' := by
  revert h
  cases tag <;> cases tag' <;> decide

/-- Members that are read as a message have each of its members as often as they should. -/
theorem Message.not_miscounted {tag : MessageTag} {m : Message}
    (htag : under MessageTag.member members = [.text tag.name])
    (hread : ofFields tag (ofValue nothing (.object (besidesTag members))) = .ok m) :
    ¬Miscounted members := by
  have hcounts := Message.length_under hread
  have hsame {tag' : MessageTag} (h : under MessageTag.member members = [.text tag'.name]) :
      tag' = tag := by
    rw [htag] at h
    injection h with h
    injection h with h
    exact (MessageTag.name_inj h).symm
  intro hcount
  cases hcount with
  | tag hone => exact hone (by rw [htag]; rfl)
  | missing htag' hname hpayload hnone =>
    have hone := (hcounts _ (hsame htag' ▸ hname)).2 hpayload
    rw [under_besidesTag hname, hnone] at hone
    cases hone
  | repeated htag' hname htwo =>
    have hle := (hcounts _ (hsame htag' ▸ hname)).1
    rw [under_besidesTag hname] at hle
    omega
  | time htag' htime hname hinner =>
    cases hsame htag'
    obtain ⟨r, hrecord, -⟩ := map_eq_ok_iff.1 hread
    have hbuffered := (@under_besidesTag .trace "time" (by decide) members).trans htime
    exact hinner (TimeTag.length_under (Record.time_of_read hrecord hbuffered) _ hname)

theorem Message.fieldsDescribedBy_members (m : Message) : m.FieldsDescribedBy m.members := by
  cases m with
  | trace record => exact ⟨rfl, ⟨_, rfl, rfl, rfl, rfl, rfl⟩, rfl, .inl rfl⟩
  | enableTrace opcode seq enable => exact ⟨rfl, rfl, rfl⟩
  | dumpTrace opcode seq => exact ⟨rfl, rfl⟩

theorem Message.describedBy_members (m : Message) :
    m.DescribedBy ((MessageTag.member, .text m.tag.name) :: m.members) where
  tag := by
    have hnone : under MessageTag.member m.members = [] := by cases m <;> rfl
    rw [under_cons_self, hnone]
  fields := m.fieldsDescribedBy_members.congr fun _ hname =>
    under_cons_of_ne (MessageTag.ne_member hname).symm m.members

theorem Message.ofFields_members (m : Message) :
    ofFields m.tag (ofValue nothing (.object m.members)) = .ok m :=
  ofFields_of_describedBy m.fieldsDescribedBy_members

end Reading

end TraceJournal
