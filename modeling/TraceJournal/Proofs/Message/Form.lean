import TraceJournal.Message.Form
import TraceJournal.Proofs.Value

/-!
# Messages as data

Besides its tag, a message has the fields that its tag calls for, each under its own name. It is
written without loss, and is not deep.
-/
namespace TraceJournal

theorem TimeTag.all_isPlain_toValue (t : TimeTag) : t.toValue.all Value.isPlain = true := by
  have hbase := t.base.toNat_lt
  have hcontext := t.context.toNat_lt
  have hseconds := t.seconds.toNat_lt
  have huseconds := t.useconds.toNat_lt
  simp only [toValue, Value.all_object_iff, List.forall_mem_cons]
  exact ⟨rfl, Value.all_isPlain_nat (by omega), Value.all_isPlain_nat (by omega),
    Value.all_isPlain_nat (by omega), Value.all_isPlain_nat (by omega), by simp⟩

theorem Record.all_isPlain_members (r : Record) :
    ∀ m ∈ r.members, m.2.all Value.isPlain = true := by
  have hid := r.id.toNat_lt
  have hpayload : ∀ b ∈ r.payload, (Value.nat b.toNat).all Value.isPlain = true := by
    intro b _
    have hb := b.toNat_lt
    exact Value.all_isPlain_nat (by omega)
  simp only [members, List.forall_mem_cons, Value.all_list_iff, List.forall_mem_map]
  exact ⟨Value.all_isPlain_nat (by omega), r.time.all_isPlain_toValue, rfl, ⟨rfl, hpayload⟩, by simp⟩

theorem Record.all_isPlain_toValue (r : Record) : r.toValue.all Value.isPlain = true :=
  Value.all_object_iff.2 ⟨rfl, r.all_isPlain_members⟩

theorem Record.depth_members (r : Record) (depth : Nat) :
    ∀ m ∈ r.members, m.2.depth ≤ depth + 1 := by
  have hpayload : (Value.list (r.payload.map fun b => .nat b.toNat)).depth ≤ depth + 1 :=
    Value.depth_list_le_iff.2 ⟨depth, rfl, by simp [Value.nat, Value.depth]⟩
  simp only [members, List.forall_mem_cons]
  refine ⟨?_, ?_, ?_, hpayload, by simp⟩ <;>
    simp [TimeTag.toValue, Value.nat, Value.depth, Value.depthMembers]

namespace Message

def tag : Message → MessageTag
  | trace _ => .trace
  | enableTrace .. => .enableTrace
  | dumpTrace .. => .dumpTrace

def members : Message → List (String × Value)
  | trace record => record.members
  | enableTrace opcode seq enable =>
    [("opcode", .nat opcode.toNat), ("seq", .nat seq.toNat), ("enable", .bool enable)]
  | dumpTrace opcode seq => [("opcode", .nat opcode.toNat), ("seq", .nat seq.toNat)]

theorem toValue_eq (m : Message) :
    m.toValue = .object ((MessageTag.member, .text m.tag.name) :: m.members) := by
  cases m <;> rfl

theorem ne_member (m : Message) : ∀ field ∈ m.members, field.1 ≠ MessageTag.member := by
  cases m <;> simp [members, Record.members, MessageTag.member]

theorem depth_members (m : Message) (depth : Nat) :
    ∀ field ∈ m.members, field.2.depth ≤ depth + 1 := by
  cases m with
  | trace record => exact record.depth_members depth
  | _ => simp [members, Value.nat, Value.depth]

theorem all_isPlain_toValue (m : Message) : m.toValue.all Value.isPlain = true := by
  have word (n : UInt32) : (Value.nat n.toNat).all Value.isPlain = true :=
    Value.all_isPlain_nat (by have := n.toNat_lt; omega)
  rw [m.toValue_eq, Value.all_object_iff, List.forall_mem_cons]
  refine ⟨rfl, rfl, ?_⟩
  cases m with
  | trace record => exact record.all_isPlain_members
  | enableTrace opcode seq enable =>
    simp only [members, List.forall_mem_cons]
    exact ⟨word opcode, word seq, rfl, by simp⟩
  | dumpTrace opcode seq =>
    simp only [members, List.forall_mem_cons]
    exact ⟨word opcode, word seq, by simp⟩

end Message

end TraceJournal
