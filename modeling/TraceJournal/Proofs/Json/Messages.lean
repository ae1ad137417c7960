import TraceJournal.Json.Message
import TraceJournal.Proofs.Json.Trees
import TraceJournal.Proofs.Message.Members

/-!
# Reading messages off JSON text

A message is read off every JSON text of an object whose members say it, in whatever order. The tag is
understood where it stands, and all other members are kept until the object ends.
-/
namespace TraceJournal

theorem Datum.getElem?_of_variantNamed {known : List String} {name : String} {n : Nat}
    (h : variantNamed known name = .ok n) : known[n]? = some name := by
  rw [variantNamed] at h
  split at h
  · next hfound =>
    cases h
    obtain ⟨hlt, hname, -⟩ := List.findIdx?_eq_some_iff_getElem.1 hfound
    rw [List.getElem?_eq_getElem hlt, beq_iff_eq.1 hname]
  · cases h

namespace Json.Node

theorem messageTag_ofValue (depth : Nat) (tag : MessageTag) :
    messageTag ⟨depth, .ofValue (.text tag.name)⟩ = .ok tag := by
  cases tag <;> rfl

theorem messageTag_iff {depth : Nat} {v : Value} {tag : MessageTag} :
    messageTag ⟨depth, .ofValue v⟩ = .ok tag ↔ v = .text tag.name := by
  constructor
  · intro h
    cases v with
    | text s =>
      obtain ⟨n, hn, htag⟩ := bind_eq_ok_iff.1 h
      have hknown : (MessageTag.all.map MessageTag.name)[n]? = some s :=
        Datum.getElem?_of_variantNamed hn
      rw [List.getElem?_map, Option.map_eq_some_iff] at hknown
      obtain ⟨other, hother, rfl⟩ := hknown
      rw [hother] at htag
      cases htag
      rfl
    | _ => cases h
  · rintro rfl
    exact messageTag_ofValue depth tag

/-- The tag is read from the members under its name, and all others are kept as they are. -/
theorem messageMembers_iff {depth : Nat} {members : List (String × Value)}
    (hdepth : ∀ m ∈ members, m.2.depth ≤ depth) {tag found : Option MessageTag}
    {done fields : List (Datum × Datum)} :
    messageMembers depth (Doc.ofMembers members) tag done = .ok (found, fields) ↔
      Fields.Fills (fun v => messageTag ⟨depth, .ofValue v⟩) tag (under MessageTag.member members)
          found ∧
        fields = done.reverse ++ Datum.ofMembers .null (Message.besidesTag members) := by
  induction members generalizing tag done with
  | nil =>
    simp [Doc.ofMembers, messageMembers, Datum.ofMembers, under_nil, Fields.Fills,
      Message.besidesTag, eq_comm]
  | cons m members ih =>
    obtain ⟨hm, hmembers⟩ := List.forall_mem_cons.1 hdepth
    rcases m with ⟨name, value⟩
    rw [Doc.ofMembers, messageMembers]
    by_cases hname : name = MessageTag.member
    · subst hname
      rw [under_cons_self, Fields.Fills]
      cases tag with
      | some tag => simp [keyText, wrongShape, bind, Except.bind]
      | none =>
        cases htag : messageTag ⟨depth, .ofValue value⟩ with
        | error fault => simp [keyText, bind, Except.bind]
        | ok tag => simp [keyText, bind, Except.bind, ih hmembers, Message.besidesTag]
    · rw [under_cons_of_ne hname]
      simp [keyText, hname, datum_ofValue hm, bind, Except.bind, ih hmembers, Datum.ofMembers,
        Message.besidesTag]

theorem message_iff {depth : Nat} {members : List (String × Value)}
    (hdepth : (Value.object members).depth ≤ depth) {m : Message} :
    message ⟨depth, .ofValue (.object members)⟩ = .ok m ↔
      ∃ tag : MessageTag, under MessageTag.member members = [.text tag.name] ∧
        Message.ofFields tag (Datum.ofValue .null (.object (Message.besidesTag members))) = .ok m := by
  obtain ⟨inner, rfl, hmembers⟩ := Value.depth_object_le_iff.1 hdepth
  have hsteps : message ⟨inner + 1, .ofValue (.object members)⟩ =
      messageMembers inner (Doc.ofMembers members) none [] >>= fun found =>
        found.1.elim (wrongShape (.missingField MessageTag.member)) fun tag =>
          Message.ofFields tag (.map found.2) := by
    simp only [Doc.ofValue, message, deeper, bind, Except.bind]
    rcases messageMembers inner (Doc.ofMembers members) none [] with fault | ⟨_ | tag, fields⟩ <;> rfl
  rw [hsteps, bind_eq_ok_iff, Prod.exists]
  simp only [messageMembers_iff hmembers, Fields.fills_none_iff, messageTag_iff]
  constructor
  · rintro ⟨found, fields, ⟨⟨-, rfl⟩ | ⟨v, tag, htag, rfl, rfl⟩, rfl⟩, hread⟩
    · cases hread
    · exact ⟨tag, htag, hread⟩
  · rintro ⟨tag, htag, hread⟩
    exact ⟨some tag, _, ⟨.inr ⟨_, tag, htag, rfl, rfl⟩, rfl⟩, hread⟩

theorem message_of_describedBy {depth : Nat} {members : List (String × Value)}
    (hdepth : (Value.object members).depth ≤ depth) {m : Message} (h : m.DescribedBy members) :
    message ⟨depth, .ofValue (.object members)⟩ = .ok m := by
  have hfields := h.fields.congr fun _ hname => Message.under_besidesTag hname members
  exact (message_iff hdepth).2 ⟨m.tag, h.tag, Message.ofFields_of_describedBy hfields⟩

theorem message_toValue (depth : Nat) (m : Message) :
    message ⟨depth + 2, .ofValue m.toValue⟩ = .ok m := by
  rw [m.toValue_eq]
  refine message_of_describedBy (Value.depth_object_le_iff.2 ⟨depth + 1, rfl, ?_⟩)
    m.describedBy_members
  exact List.forall_mem_cons.2 ⟨Nat.zero_le _, m.depth_members depth⟩

end Json.Node

namespace Json

/-- An object text is read as the message that its members say, in whatever order they stand and
whatever else it holds. If the tag, or a member that belongs to what the tag names, is missing or
stands more than once, it is not read as a message; only the payload of a trace may be missing. -/
theorem read_unordered {members : List (String × Value)} {text : List UInt8}
    (htext : IsText (.object members) text) (hdepth : (Value.object members).depth ≤ maxDepth) :
    (∀ m : Message, m.DescribedBy members → read Node.message text = .ok m) ∧
      (Message.Miscounted members → ∃ fault, read Node.message text = .error fault) := by
  rw [read_eq Node.message htext]
  constructor
  · exact fun m hm => Node.message_of_describedBy hdepth hm
  · intro hcount
    cases hread : Node.message ⟨maxDepth, .ofValue (.object members)⟩ with
    | error fault => exact ⟨fault, rfl⟩
    | ok m =>
      obtain ⟨tag, htag, hfields⟩ := (Node.message_iff hdepth).1 hread
      exact absurd hcount (Message.not_miscounted htag hfields)

/-- A trace without a payload, its members out of order and among others, between blanks; and one
whose time lacks a member. -/
theorem read_unordered_shuffled :
    let inner : List (String × Value) :=
      [("useconds", .nat 4), ("zone", .null), ("base", .nat 1), ("seconds", .nat 3),
        ("context", .nat 2)]
    let shuffled (inner : List (String × Value)) : List (String × Value) :=
      [("kind", .text "user"), ("note", .object [("msg", .list [])]), ("time", .object inner),
        ("msg", .text "trace"), ("note", .bool true), ("id", .nat 7)]
    let text (inner : List (String × Value)) : List UInt8 :=
      [0x0A] ++ pretty (.object (shuffled inner)) ++ [0x20]
    IsText (.object (shuffled inner)) (text inner) ∧
      (Value.object (shuffled inner)).depth ≤ maxDepth ∧
      (Message.trace ⟨7, ⟨1, 2, 3, 4⟩, .user, []⟩).DescribedBy (shuffled inner) ∧
      Message.Miscounted (shuffled inner.tail) ∧
      read Node.message (text inner) = .ok (.trace ⟨7, ⟨1, 2, 3, 4⟩, .user, []⟩) ∧
      ∃ fault, read Node.message (text inner.tail) = .error fault := by
  intro inner shuffled text
  have hspelled (inner : List (String × Value))
      (h : (Value.object (shuffled inner)).all Value.isPlain = true) :
      IsText (.object (shuffled inner)) (text inner) :=
    .padded (by simp [Blank]) (spells_write h (.indented 0)) (by simp [Blank])
  have htext := hspelled inner (by decide)
  have hdepth : (Value.object (shuffled inner)).depth ≤ maxDepth := by decide
  have hdescribed : (Message.trace ⟨7, ⟨1, 2, 3, 4⟩, .user, []⟩).DescribedBy (shuffled inner) :=
    ⟨rfl, rfl, ⟨inner, rfl, rfl, rfl, rfl, rfl⟩, rfl, .inr ⟨rfl, rfl⟩⟩
  have hlacks : Message.Miscounted (shuffled inner.tail) :=
    @Message.Miscounted.time _ rfl inner.tail rfl "useconds" (by decide) (by decide)
  refine ⟨htext, hdepth, hdescribed, hlacks, (read_unordered htext hdepth).1 _ hdescribed, ?_⟩
  exact (read_unordered (hspelled inner.tail (by decide)) (by decide)).2 hlacks

end Json

end TraceJournal
