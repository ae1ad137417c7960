import TraceJournal.Proofs.Cbor.Trees
import TraceJournal.Proofs.Json.Messages
import TraceJournal.Script.Basic

/-!
# Scripts that come back from their data

A script is read off its data in every format that shows data, and loses nothing if its messages and
its metadata lose nothing.
-/
namespace TraceJournal

namespace Script

variable {ν : Type} [Source ν] {render : Nat → Value → ν} {s : Script}

theorem nullable_metadata {value : ν → Except ReadFault Value} {depth : Nat}
    (hnull : Source.isNull (render depth .null) = true)
    (hmetadata : ∀ v, s.metadata = some v →
      Source.isNull (render depth v) = false ∧ value (render depth v) = .ok v) :
    Source.nullable value (render depth (s.metadata.getD .null)) = .ok s.metadata := by
  cases h : s.metadata with
  | none => simp [Source.nullable, hnull]
  | some v =>
    obtain ⟨hsome, hvalue⟩ := hmetadata v h
    simp [Source.nullable, hsome, hvalue, Functor.map, Except.map]

theorem read_render (message : ν → Except ReadFault Message) (value : ν → Except ReadFault Value)
    (depth : Nat) (h : Shows render)
    (hmessages : ∀ m ∈ s.messages, message (render depth m.toValue) = .ok m)
    (hnull : Source.isNull (render (depth + 1) .null) = true)
    (hmetadata : ∀ v, s.metadata = some v →
      Source.isNull (render (depth + 1) v) = false ∧ value (render (depth + 1) v) = .ok v) :
    read message value (render (depth + 2) s.toValue) = .ok s := by
  have hspells : (fields message value).Spells _ (s.version, s.messages, s.metadata, ()) :=
    .cons (by simp [Fields.names]) (h.uint16 (depth + 1) s.version) <|
    .cons (by simp [Fields.names]) (h.list hmessages) <|
    .cons (by simp [Fields.names]) (nullable_metadata hnull hmetadata) .nil
  rw [read, toValue, h.fields (depth + 1) rfl hspells]
  rfl

/-- Metadata that is written without loss and read back by every format that takes names of its
length: something, without floating point numbers, and at most 126 levels deep. -/
structure IsKept (v : Value) : Prop where
  ne_null : v ≠ .null
  isExact : v.all Value.isExact = true
  depth_le : v.depth ≤ 126

theorem all_isPlain_toValue (h : ∀ v, s.metadata = some v → v.all Value.isPlain = true) :
    s.toValue.all Value.isPlain = true := by
  have hversion := s.version.toNat_lt
  have hmetadata : (s.metadata.getD .null).all Value.isPlain = true := by
    cases hv : s.metadata with
    | none => rfl
    | some v => exact h v hv
  simp only [toValue, Value.all_object_iff, List.forall_mem_cons, Value.all_list_iff,
    List.forall_mem_map]
  exact ⟨rfl, Value.all_isPlain_nat (by omega), ⟨rfl, fun m _ => m.all_isPlain_toValue⟩, hmetadata,
    by simp⟩

theorem json_read_pretty (hmetadata : ∀ v, s.metadata = some v → IsKept v) :
    Json.read (read Json.Node.message Json.Node.value) (Json.pretty s.toValue) = .ok s := by
  have hplain := all_isPlain_toValue fun v hv => Value.all_isPlain (hmetadata v hv).isExact
  have hnull (v : Value) (hv : s.metadata = some v) :
      Source.isNull (⟨126, .ofValue v⟩ : Json.Node) = false := by
    have hne := (hmetadata v hv).ne_null
    cases v <;> first | rfl | exact absurd rfl hne
  have hread := read_render Json.Node.message Json.Node.value 125 Json.Node.shows_ofValue
    (fun m _ => Json.Node.message_toValue 123 m) rfl fun v hv =>
      ⟨hnull v hv, Json.Node.value_ofValue (hmetadata v hv).isExact (hmetadata v hv).depth_le⟩
  exact Json.read_write hplain hread (.indented 0)

/-- CBOR keeps scripts, if the first name of every object in their metadata fits its buffer. -/
theorem cbor_read_write (hmetadata : ∀ v, s.metadata = some v → IsKept v)
    (hnamed : ∀ v, s.metadata = some v → v.all Value.isNamed = true)
    (hsized : s.toValue.all Value.isSized = true) :
    Cbor.read (read Cbor.Node.message Cbor.Node.value) (Cbor.write s.toValue) = .ok s := by
  have hplain := all_isPlain_toValue fun v hv => Value.all_isPlain (hmetadata v hv).isExact
  have hnull (v : Value) (hv : s.metadata = some v) :
      Source.isNull (⟨255, .ofValue v⟩ : Cbor.Node) = false := by
    have hne := (hmetadata v hv).ne_null
    rcases v with _ | b | n | _ | _ | _ | _
    · exact absurd rfl hne
    · cases b <;> rfl
    · rw [Cbor.Item.ofValue]
      split <;> rfl
    all_goals rfl
  have hvalue (v : Value) (hv : s.metadata = some v) :
      Cbor.Node.value ⟨255, .ofValue v⟩ = .ok v := by
    have hdepth : v.depth ≤ 255 := Nat.le_trans (hmetadata v hv).depth_le (by decide)
    exact Cbor.Node.plainValue_ofValue (hmetadata v hv).isExact (hnamed v hv) hdepth
  rw [Cbor.read, Cbor.Item.ofBytes_write hplain hsized]
  exact read_render Cbor.Node.message Cbor.Node.value 254 Cbor.Node.shows_ofValue
    (fun m _ => Cbor.Node.message_toValue 252 m) rfl fun v hv => ⟨hnull v hv, hvalue v hv⟩

/-- What CBOR writes of a script whose metadata starts with a longer name is refused. -/
theorem cbor_read_longName {name : String} {v : Value} {members : List (String × Value)}
    (hmetadata : s.metadata = some (.object ((name, v) :: members)))
    (hplain : s.toValue.all Value.isPlain = true) (hsized : s.toValue.all Value.isSized = true)
    (hlong : Cbor.Item.maxName < name.utf8ByteSize) :
    Cbor.read (read Cbor.Node.message Cbor.Node.value) (Cbor.write s.toValue) =
      wrongShape (.wrongType (.word "string") "str") := by
  have hversion := Cbor.Node.shows_ofValue.uint16 255 s.version
  have hmessages : Source.list Cbor.Node.message
      (⟨255, .ofValue (.list (s.messages.map Message.toValue))⟩ : Cbor.Node) = .ok s.messages :=
    Cbor.Node.shows_ofValue.list fun m _ => Cbor.Node.message_toValue 252 m
  have hvalue : Source.nullable Cbor.Node.value
      (⟨255, .ofValue (.object ((name, v) :: members))⟩ : Cbor.Node) =
        wrongShape (.wrongType (.word "string") "str") := by
    have hnull : Source.isNull
        (⟨255, .ofValue (.object ((name, v) :: members))⟩ : Cbor.Node) = false := rfl
    rw [Source.nullable, hnull, Cbor.Node.value_longName hlong]
    rfl
  have hcompound := @Shows.compound _ _ _ Cbor.Node.shows_ofValue 255 "struct Script"
    [("version", .nat s.version.toNat), ("messages", .list (s.messages.map Message.toValue)),
      ("meta", .object ((name, v) :: members))] rfl
  have hdepth : Cbor.maxDepth = 255 + 1 := rfl
  rw [Cbor.read, Cbor.Item.ofBytes_write hplain hsized, read, Fields.read, toValue, hmetadata,
    Option.getD_some, hdepth, hcompound]
  simp [bind, Except.bind, Fields.readMembers, Fields.store, fields, Fields.blank, Fields.selects,
    Fields.next, hversion, hmessages, hvalue, Except.map, wrongShape]

end Script

end TraceJournal
