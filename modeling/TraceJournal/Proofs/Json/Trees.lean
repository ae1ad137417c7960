import TraceJournal.Json.Node
import TraceJournal.Proofs.Json.Written
import TraceJournal.Proofs.Shape.Datum

/-!
# Reading JSON text

The tokens of data build the tree of that data, and the tree is read as what it was made of. Depth is
the only limit.
-/
namespace TraceJournal.Json

namespace Doc

mutual

def ofValue : Value → Doc
  | .null => .null
  | .bool b => .bool b
  | .int n => .number (.ok (.int n)) none
  | .float x => .number (.ok (.float x)) none
  | .text s => .string (.ok s) none
  | .list items => .list (ofItems items) none
  | .object members => .object (ofMembers members) none

def ofItems : List Value → List Doc
  | [] => []
  | item :: items => ofValue item :: ofItems items

def ofMembers : List (String × Value) → List (Doc × Doc)
  | [] => []
  | (name, value) :: members => (.string (.ok name) none, ofValue value) :: ofMembers members

end

theorem ofItems_eq_map (items : List Value) : ofItems items = items.map ofValue := by
  induction items with
  | nil => rfl
  | cons item items ih => rw [ofItems, ih, List.map_cons]

theorem ofMembers_eq_map (members : List (String × Value)) :
    ofMembers members = members.map fun m => (.string (.ok m.1) none, ofValue m.2) := by
  induction members with
  | nil => rfl
  | cons m members ih => rw [ofMembers, ih, List.map_cons]

end Doc

namespace Builder

/-- Where a value is due, these tokens put `doc` there. -/
def Builds (doc : Doc) (tokens : List Token) : Prop :=
  ∀ stack, tokens.foldl step (.within .value stack) = deliver doc stack

/-- Where a list may end at once, a value that starts it is due like any other. -/
theorem Builds.firstItem {v : Value} (h : Builds (.ofValue v) (tokensOf v)) (stack : List Frame) :
    (tokensOf v).foldl step (.within .firstItem stack) = deliver (.ofValue v) stack := by
  rw [← h stack]
  cases v with
  | list items => cases items <;> rfl
  | object members => cases members <;> rfl
  | _ => rfl

theorem foldl_tokensOfItems {items : List Value}
    (h : ∀ v ∈ items, Builds (.ofValue v) (tokensOf v)) (done : List Doc) (stack : List Frame) :
    (tokensOfItems items).foldl step (.within .separator (.list done :: stack)) =
      .within .separator (.list ((items.map Doc.ofValue).reverse ++ done) :: stack) := by
  induction items generalizing done with
  | nil => rfl
  | cons item items ih =>
    obtain ⟨hitem, hitems⟩ := List.forall_mem_cons.1 h
    have hcomma : step (.within .separator (.list done :: stack)) .comma =
      .within .value (.list done :: stack) := rfl
    rw [tokensOfItems, List.foldl_append, List.foldl_append, List.foldl_cons, List.foldl_nil, hcomma,
      hitem, deliver, ih hitems]
    simp

theorem foldl_tokensOfMembers {members : List (String × Value)}
    (h : ∀ m ∈ members, Builds (.ofValue m.2) (tokensOf m.2)) (done : List (Doc × Doc))
    (stack : List Frame) :
    (tokensOfMembers members).foldl step (.within .separator (.object done .null :: stack)) =
      .within .separator (.object ((Doc.ofMembers members).reverse ++ done) .null :: stack) := by
  induction members generalizing done with
  | nil => rfl
  | cons m members ih =>
    rcases m with ⟨name, value⟩
    obtain ⟨hm, hmembers⟩ := List.forall_mem_cons.1 h
    have hname : [.comma, .string (.ok name) none, .colon].foldl step
        (.within .separator (.object done .null :: stack)) =
      .within .value (.object done (.string (.ok name) none) :: stack) := rfl
    rw [tokensOfMembers, List.foldl_append, List.foldl_append, hname, hm, deliver, ih hmembers,
      Doc.ofMembers]
    simp

theorem builds (v : Value) : Builds (.ofValue v) (tokensOf v) := by
  induction v with
  | list items ih =>
    cases items with
    | nil => exact fun _ => rfl
    | cons item items =>
      obtain ⟨hitem, hitems⟩ := List.forall_mem_cons.1 ih
      intro stack
      have hopen : [.openList].foldl step (.within .value stack) =
        .within .firstItem (.list [] :: stack) := rfl
      rw [tokensOf, List.foldl_append, List.foldl_append, List.foldl_append, hopen,
        Builds.firstItem hitem, deliver, foldl_tokensOfItems hitems, Doc.ofValue, Doc.ofItems_eq_map]
      simp [step, stepSeparator]
  | object members ih =>
    cases members with
    | nil => exact fun _ => rfl
    | cons m members =>
      rcases m with ⟨name, value⟩
      obtain ⟨hm, hmembers⟩ := List.forall_mem_cons.1 ih
      intro stack
      have hopen : [.openObject, .string (.ok name) none, .colon].foldl step
          (.within .value stack) =
        .within .value (.object [] (.string (.ok name) none) :: stack) := rfl
      rw [tokensOf, List.foldl_append, List.foldl_append, List.foldl_append, hopen, hm, deliver,
        foldl_tokensOfMembers hmembers, Doc.ofValue, Doc.ofMembers]
      simp [step, stepSeparator]
  | _ => exact fun _ => rfl

end Builder

/-- A text of a value is read as the tree of that value, and nothing follows it. -/
theorem Doc.ofText_eq {v : Value} {text : List UInt8} (h : IsText v text) :
    Doc.ofText text = (.ofValue v, false) := by
  rw [Doc.ofText, tokens_text h, Builder.start, Builder.builds]
  rfl

/-- What a reader makes of the tree of a value, it makes of every text of the value. -/
theorem read_eq {α : Type} (reader : Node → Except ReadFault α) {v : Value} {text : List UInt8}
    (h : IsText v text) : read reader text = reader ⟨maxDepth, .ofValue v⟩ := by
  rw [read, Doc.ofText_eq h]
  dsimp only
  cases reader ⟨maxDepth, .ofValue v⟩ <;> rfl

/-- What a reader makes of the tree of data, it reads off the text of that data in either style. -/
theorem read_write {α : Type} {reader : Node → Except ReadFault α} {v : Value} {a : α}
    (hplain : v.all Value.isPlain = true) (hreader : reader ⟨maxDepth, .ofValue v⟩ = .ok a)
    (style : Style) : read reader (write style v) = .ok a := by
  rw [read_eq reader (isText_write hplain style), hreader]

namespace Node

theorem datumItems_map {depth : Nat} {items : List Value}
    (h : ∀ v ∈ items, datum depth (.ofValue v) = .ok (.ofValue .null v)) :
    datumItems depth (Doc.ofItems items) = .ok (Datum.ofItems .null items) := by
  induction items with
  | nil => rfl
  | cons item items ih =>
    obtain ⟨hitem, hitems⟩ := List.forall_mem_cons.1 h
    rw [Doc.ofItems, datumItems, hitem, ih hitems]
    rfl

theorem datumMembers_map {depth : Nat} {members : List (String × Value)}
    (h : ∀ m ∈ members, datum depth (.ofValue m.2) = .ok (.ofValue .null m.2)) :
    datumMembers depth (Doc.ofMembers members) = .ok (Datum.ofMembers .null members) := by
  induction members with
  | nil => rfl
  | cons m members ih =>
    obtain ⟨hm, hmembers⟩ := List.forall_mem_cons.1 h
    rw [Doc.ofMembers, datumMembers, ih hmembers, hm]
    rfl

theorem datum_ofValue {v : Value} {depth : Nat} (h : v.depth ≤ depth) :
    datum depth (.ofValue v) = .ok (.ofValue .null v) := by
  induction v generalizing depth with
  | list items ih =>
    obtain ⟨inner, rfl, hitems⟩ := Value.depth_list_le_iff.1 h
    have hall := datumItems_map fun v hv => ih v hv (hitems v hv)
    simp [Doc.ofValue, datum, deeper, hall, Datum.ofValue, bind, Except.bind, pure, Except.pure]
  | object members ih =>
    obtain ⟨inner, rfl, hmembers⟩ := Value.depth_object_le_iff.1 h
    have hall := datumMembers_map fun m hm => ih m hm (hmembers m hm)
    simp [Doc.ofValue, datum, deeper, hall, Datum.ofValue, bind, Except.bind, pure, Except.pure]
  | _ => rfl

/-- Data that can be written without loss is read back, if it is not too deep. -/
theorem value_ofValue {v : Value} {depth : Nat} (hexact : v.all Value.isExact = true)
    (hdepth : v.depth ≤ depth) : value ⟨depth, .ofValue v⟩ = .ok v := by
  rw [value, datum_ofValue hdepth]
  exact Datum.toValue_ofValue rfl hexact

theorem shows_ofValue : Shows fun depth v => (⟨depth, .ofValue v⟩ : Node) where
  natural {_ _ n} _ hn := if_pos ⟨Int.natCast_nonneg n, hn⟩
  boolean _ _ := rfl
  choice {_ _ known name} _ hfirst := by
    change Datum.variantNamed known name = _
    rw [Datum.variantNamed, hfirst]
  items items := by
    rw [Doc.ofValue, Doc.ofItems_eq_map]
    simp [Source.items, Node.items, deeper, bind, Except.bind, pure, Except.pure, Function.comp_def]
  compound {_ _ members} _ := by
    rw [Doc.ofValue, Doc.ofMembers_eq_map]
    simp [Source.compound, Node.compound, deeper, keyText, bind, Except.bind, pure, Except.pure,
      Functor.map, Except.map, Function.comp_def]

end Node

end TraceJournal.Json
