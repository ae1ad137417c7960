import TraceJournal.Cbor.Node
import TraceJournal.Proofs.Cbor.Heads
import TraceJournal.Proofs.Message.Members

/-!
# Reading written CBOR

The tokens that data is written with build its tree, and the tree is read as what it was made of.
Besides the depth there is a limit to names: the first one of an object goes through a buffer of a
fixed size where plain data is read.
-/
namespace TraceJournal

/-- Whether an object's first name fits the buffer that it is read through. -/
def Value.isNamed : Value → Bool
  | .object ((name, _) :: _) => decide (name.utf8ByteSize ≤ Cbor.Item.maxName)
  | _ => true

namespace Cbor

namespace Item

mutual

def ofValue : Value → Item
  | .null => .simple 22
  | .bool true => .simple 21
  | .bool false => .simple 20
  | .int n => if n < 0 then .negative (-1 - n).toNat else .unsigned n.toNat
  | .float x => .float x
  | .text s => .text (some s.utf8ByteSize) (.ok s)
  | .list items => .list (some items.length) (ofItems items)
  | .object members => .map (some members.length) (ofMembers members)

def ofItems : List Value → List Item
  | [] => []
  | item :: items => ofValue item :: ofItems items

def ofMembers : List (String × Value) → List (Item × Item)
  | [] => []
  | (name, value) :: members =>
    (.text (some name.utf8ByteSize) (.ok name), ofValue value) :: ofMembers members

end

theorem ofItems_eq_map (items : List Value) : ofItems items = items.map ofValue := by
  induction items with
  | nil => rfl
  | cons item items ih => rw [ofItems, ih, List.map_cons]

theorem ofMembers_eq_map (members : List (String × Value)) :
    ofMembers members =
      members.map fun m => (.text (some m.1.utf8ByteSize) (.ok m.1), ofValue m.2) := by
  induction members with
  | nil => rfl
  | cons m members ih => rw [ofMembers, ih, List.map_cons]

end Item

namespace Builder

/-- Whether any item may come next, rather than a segment of a string. -/
def takesItems : List Frame → Bool
  | .bytes _ _ :: _ | .text _ _ :: _ => false
  | _ => true

theorem step_within {stack : List Frame} (h : takesItems stack = true) (token : Token) :
    step (.within stack) token = stepItem token stack := by
  unfold step
  split <;> simp_all [takesItems]

/-- Where any item may come, these tokens put `item` there. -/
def Builds (item : Item) (tokens : List Token) : Prop :=
  ∀ stack, takesItems stack = true → tokens.foldl step (.within stack) = deliver item stack

theorem Builds.single {item : Item} {token : Token}
    (h : ∀ stack, stepItem token stack = deliver item stack) : Builds item [token] := by
  intro stack hstack
  rw [List.foldl_cons, List.foldl_nil, step_within hstack, h]

theorem foldl_tokensOfItems {items : List Value}
    (h : ∀ v ∈ items, Builds (.ofValue v) (tokensOf v)) (hne : items ≠ []) (length : Option Nat)
    (done : List Item) (stack : List Frame) :
    (tokensOfItems items).foldl step (.within (.list length (some items.length) done :: stack)) =
      deliver (.list length (done.reverse ++ Item.ofItems items)) stack := by
  induction items generalizing done with
  | nil => exact absurd rfl hne
  | cons item items ih =>
    obtain ⟨hitem, hitems⟩ := List.forall_mem_cons.1 h
    rw [tokensOfItems, List.foldl_append, hitem _ rfl, Item.ofItems]
    cases items with
    | nil => simp [deliver, tokensOfItems, Item.ofItems]
    | cons next items =>
      have hrest := ih hitems (by simp) (.ofValue item :: done)
      simpa [deliver] using hrest

theorem foldl_tokensOfMembers {members : List (String × Value)}
    (h : ∀ m ∈ members, Builds (.ofValue m.2) (tokensOf m.2)) (hne : members ≠ [])
    (length : Option Nat) (done : List (Item × Item)) (stack : List Frame) :
    (tokensOfMembers members).foldl step
        (.within (.map length (some members.length) done none :: stack)) =
      deliver (.map length (done.reverse ++ Item.ofMembers members)) stack := by
  induction members generalizing done with
  | nil => exact absurd rfl hne
  | cons m members ih =>
    rcases m with ⟨name, value⟩
    obtain ⟨hm, hmembers⟩ := List.forall_mem_cons.1 h
    have hname : step (.within (.map length (some (members.length + 1)) done none :: stack))
        (.text name.utf8ByteSize (.ok name)) =
      .within (.map length (some (members.length + 1)) done
        (some (.text (some name.utf8ByteSize) (.ok name))) :: stack) := rfl
    rw [tokensOfMembers, List.cons_append, List.foldl_cons, List.foldl_append, List.length_cons,
      hname, hm _ rfl, Item.ofMembers]
    cases members with
    | nil => simp [deliver, tokensOfMembers, Item.ofMembers]
    | cons next members =>
      have hrest := ih hmembers (by simp)
        ((.text (some name.utf8ByteSize) (.ok name), .ofValue value) :: done)
      simpa [deliver] using hrest

theorem builds (v : Value) : Builds (.ofValue v) (tokensOf v) := by
  induction v with
  | int n =>
    rw [tokensOf, Item.ofValue]
    split <;> exact .single fun _ => rfl
  | bool b => cases b <;> exact .single fun _ => rfl
  | list items ih =>
    intro stack hstack
    rw [tokensOf, Item.ofValue, List.foldl_cons, step_within hstack]
    by_cases hne : items = []
    · rw [hne]
      rfl
    · obtain ⟨n, hn⟩ := Nat.exists_eq_succ_of_ne_zero (mt List.length_eq_zero_iff.1 hne)
      have hitems := foldl_tokensOfItems ih hne (some items.length) [] stack
      have hopen : stepItem (.list (some items.length)) stack =
          .within (.list (some items.length) (some items.length) [] :: stack) := by
        rw [hn]
        rfl
      rw [hopen, hitems]
      rfl
  | object members ih =>
    intro stack hstack
    rw [tokensOf, Item.ofValue, List.foldl_cons, step_within hstack]
    by_cases hne : members = []
    · rw [hne]
      rfl
    · obtain ⟨n, hn⟩ := Nat.exists_eq_succ_of_ne_zero (mt List.length_eq_zero_iff.1 hne)
      have hmembers := foldl_tokensOfMembers ih hne (some members.length) [] stack
      have hopen : stepItem (.map (some members.length)) stack =
          .within (.map (some members.length) (some members.length) [] none :: stack) := by
        rw [hn]
        rfl
      rw [hopen, hmembers]
      rfl
  | _ => exact .single fun _ => rfl

end Builder

/-- What is written is read as the tree of the data. -/
theorem Item.ofBytes_write {v : Value} (hplain : v.all Value.isPlain = true)
    (hsized : v.all Value.isSized = true) : Item.ofBytes (write v) = .ofValue v := by
  rw [Item.ofBytes, tokens_write hplain hsized, Builder.start, Builder.builds v [] rfl]
  rfl

namespace Node

variable {depth : Nat}

theorem datumItems_ofItems {items : List Value}
    (h : ∀ v ∈ items, ∀ kind, datum kind depth (.ofValue v) = .ok (.ofValue .absent v)) :
    datumItems depth (Item.ofItems items) = .ok (Datum.ofItems .absent items) := by
  induction items with
  | nil => rfl
  | cons item items ih =>
    obtain ⟨hitem, hitems⟩ := List.forall_mem_cons.1 h
    rw [Item.ofItems, datumItems, hitem, ih hitems]
    rfl

theorem datumMembers_ofMembers {members : List (String × Value)}
    (h : ∀ m ∈ members, ∀ kind, datum kind depth (.ofValue m.2) = .ok (.ofValue .absent m.2)) :
    datumMembers depth (Item.ofMembers members) = .ok (Datum.ofMembers .absent members) := by
  induction members with
  | nil => rfl
  | cons m members ih =>
    obtain ⟨hm, hmembers⟩ := List.forall_mem_cons.1 h
    rw [Item.ofMembers, datumMembers, ih hmembers, hm]
    rfl

/-- Data that is not too deep is buffered as it is. -/
theorem datum_ofValue {v : Value} (hplain : v.all Value.isPlain = true) (hdepth : v.depth ≤ depth)
    (kind : String) : datum kind depth (.ofValue v) = .ok (.ofValue .absent v) := by
  induction v generalizing depth kind with
  | bool b => cases b <;> rfl
  | int n =>
    have hn : -0x8000000000000000 ≤ n ∧ n < 0x10000000000000000 := by
      simpa [Value.all, Value.isPlain] using hplain
    rw [Item.ofValue]
    split
    · have hsmall : (-1 - n).toNat < Nat.pow 2 63 := by
        change (-1 - n).toNat < 0x8000000000000000
        omega
      have hsame : -1 - ((-1 - n).toNat : Int) = n := by omega
      rw [datum, if_pos hsmall, hsame]
      rfl
    · have hsame : (n.toNat : Int) = n := by omega
      rw [datum, hsame]
      rfl
  | list items ih =>
    obtain ⟨inner, rfl, hitems⟩ := Value.depth_list_le_iff.1 hdepth
    obtain ⟨-, hplain⟩ := Value.all_list_iff.1 hplain
    have hall := datumItems_ofItems fun v hv => ih v hv (hplain v hv) (hitems v hv)
    simp [Item.ofValue, datum, deeper, hall, Datum.ofValue, bind, Except.bind, Functor.map, Except.map]
  | object members ih =>
    obtain ⟨inner, rfl, hmembers⟩ := Value.depth_object_le_iff.1 hdepth
    obtain ⟨-, hplain⟩ := Value.all_object_iff.1 hplain
    have hall := datumMembers_ofMembers fun m hm => ih m hm (hplain m hm) (hmembers m hm)
    simp [Item.ofValue, datum, deeper, hall, Datum.ofValue, bind, Except.bind, Functor.map, Except.map]
  | _ => rfl

theorem plainItems_ofItems {items : List Value}
    (h : ∀ v ∈ items, plainValue depth (.ofValue v) = .ok v) :
    plainItems depth (Item.ofItems items) = .ok items := by
  induction items with
  | nil => rfl
  | cons item items ih =>
    obtain ⟨hitem, hitems⟩ := List.forall_mem_cons.1 h
    rw [Item.ofItems, plainItems, hitem, ih hitems]
    rfl

theorem plainMembers_fullText {members : List (String × Value)}
    (h : ∀ m ∈ members, plainValue depth (.ofValue m.2) = .ok m.2) :
    plainMembers depth Item.fullText (Item.ofMembers members) = .ok members := by
  induction members with
  | nil => rfl
  | cons m members ih =>
    obtain ⟨hm, hmembers⟩ := List.forall_mem_cons.1 h
    rw [Item.ofMembers, plainMembers, hm, ih hmembers]
    rfl

theorem plainMembers_name {members : List (String × Value)}
    (hnamed : (Value.object members).isNamed = true)
    (h : ∀ m ∈ members, plainValue depth (.ofValue m.2) = .ok m.2) :
    plainMembers depth (Item.name "str") (Item.ofMembers members) = .ok members := by
  cases members with
  | nil => rfl
  | cons m members =>
    obtain ⟨hm, hmembers⟩ := List.forall_mem_cons.1 h
    have hname : Item.name "str" (.text (some m.1.utf8ByteSize) (.ok m.1)) = .ok m.1 :=
      if_pos (of_decide_eq_true hnamed)
    rw [Item.ofMembers, plainMembers, hname, hm, plainMembers_fullText hmembers]
    rfl

/-- Data that can be written without loss is read back, if it is not too deep and the first name of
every object fits its buffer. -/
theorem plainValue_ofValue {v : Value} (hexact : v.all Value.isExact = true)
    (hnamed : v.all Value.isNamed = true) (hdepth : v.depth ≤ depth) :
    plainValue depth (.ofValue v) = .ok v := by
  induction v generalizing depth with
  | bool b => cases b <;> rfl
  | int n =>
    have hn : -0x8000000000000000 ≤ n ∧ n < 0x10000000000000000 := by
      simpa [Value.all, Value.isExact, Value.isPlain] using hexact
    rw [Item.ofValue]
    split
    · have hsame : -1 - ((-1 - n).toNat : Int) = n := by omega
      rw [plainValue, hsame]
      exact if_pos hn
    · have hsame : (n.toNat : Int) = n := by omega
      rw [plainValue, hsame]
      exact if_pos hn
  | float x => simp [Value.all, Value.isExact, Value.isPlain] at hexact
  | list items ih =>
    obtain ⟨inner, rfl, hitems⟩ := Value.depth_list_le_iff.1 hdepth
    obtain ⟨-, hexact⟩ := Value.all_list_iff.1 hexact
    obtain ⟨-, hnamed⟩ := Value.all_list_iff.1 hnamed
    have hall := plainItems_ofItems fun v hv => ih v hv (hexact v hv) (hnamed v hv) (hitems v hv)
    simp [Item.ofValue, plainValue, deeper, hall, bind, Except.bind, Functor.map, Except.map]
  | object members ih =>
    obtain ⟨inner, rfl, hmembers⟩ := Value.depth_object_le_iff.1 hdepth
    obtain ⟨hordered, hexact⟩ := Value.all_object_iff.1 hexact
    obtain ⟨hfirst, hnamed⟩ := Value.all_object_iff.1 hnamed
    have hall := plainMembers_name hfirst fun m hm =>
      ih m hm (hexact m hm) (hnamed m hm) (hmembers m hm)
    simp [Item.ofValue, plainValue, deeper, hall, bind, Except.bind, Functor.map, Except.map,
      Value.sorted_of_ordered hordered]
  | _ => rfl

/-- An object whose first name does not fit is refused, although it was written. -/
theorem value_longName {name : String} (hlong : Item.maxName < name.utf8ByteSize) (v : Value)
    (members : List (String × Value)) :
    value ⟨depth + 1, .ofValue (.object ((name, v) :: members))⟩ =
      wrongShape (.wrongType (.word "string") "str") := by
  have hname : Item.name "str" (.text (some name.utf8ByteSize) (.ok name)) =
      wrongShape (.wrongType (.word "string") "str") := if_neg (by omega)
  simp [value, Item.ofValue, Item.ofMembers, plainValue, plainMembers, deeper, hname, wrongShape, bind,
    Except.bind, Functor.map, Except.map]

theorem ofValue_nat (n : Nat) : Item.ofValue (.nat n) = .unsigned n := by
  rw [Value.nat, Item.ofValue, if_neg (by omega), Int.toNat_natCast]

theorem identifier_text {name : String} (h : name.utf8ByteSize ≤ maxShown) :
    (Item.text (some name.utf8ByteSize) (.ok name)).identifier = .ok name :=
  if_pos h

theorem shows_ofValue : Shows fun depth v => (⟨depth, .ofValue v⟩ : Node) where
  natural {_ bits n} hbits hn := by
    have hword : ¬UInt64.size ≤ n := by
      have hpow : Nat.pow 2 bits ≤ UInt64.size := Nat.pow_le_pow_right (by decide) hbits
      omega
    simp only [ofValue_nat, Source.natural, Node.natural, Item.integer, bind, Except.bind]
    rw [if_neg hword, if_pos hn]
    rfl
  boolean _ b := by cases b <;> rfl
  choice {_ _ known name} hshort hfirst := by
    simp [Source.choice, Node.choice, Item.ofValue, Item.untagged, deeper, variant,
      identifier_text hshort, hfirst, bind, Except.bind, pure, Except.pure]
  items items := by
    rw [Item.ofValue, Item.ofItems_eq_map]
    simp [Source.items, Node.items, Item.untagged, deeper, bind, Except.bind, pure, Except.pure,
      Function.comp_def]
  compound {depth title members} hshort := by
    have hnames : ∀ m ∈ members, m.1.utf8ByteSize ≤ maxShown := by simpa using hshort
    rw [Item.ofValue, Item.ofMembers_eq_map]
    simp only [Source.compound, Node.compound, Item.untagged, deeper, bind, Except.bind, pure,
      Except.pure, List.map_map]
    congr 2
    refine List.map_congr_left fun m hm => ?_
    simp [identifier_text (hnames m hm), Functor.map, Except.map]

theorem messageTag_ofValue (depth : Nat) (tag : MessageTag) :
    messageTag ⟨depth, .ofValue (.text tag.name)⟩ = .ok tag := by
  cases tag <;> rfl

theorem messageMembers_ofMembers {members : List (String × Value)}
    (hdatum : ∀ m ∈ members, ∀ kind, datum kind depth (.ofValue m.2) = .ok (.ofValue .absent m.2))
    (hother : ∀ m ∈ members, m.1 ≠ MessageTag.member) (tag : MessageTag)
    (done : List (Datum × Datum)) :
    messageMembers depth (Item.ofMembers members) (some tag) done =
      .ok (some tag, done.reverse ++ Datum.ofMembers .absent members) := by
  induction members generalizing done with
  | nil => simp [Item.ofMembers, messageMembers, Datum.ofMembers]
  | cons m members ih =>
    obtain ⟨hm, hmembers⟩ := List.forall_mem_cons.1 hdatum
    obtain ⟨hname, hnames⟩ := List.forall_mem_cons.1 hother
    have hrest := ih hmembers hnames ((.text m.1, .ofValue .absent m.2) :: done)
    rw [Item.ofMembers, messageMembers]
    simp [datum, isTagKey, hname, hm, hrest, bind, Except.bind, Functor.map, Except.map,
      Datum.ofMembers]

/-- A message takes two levels. -/
theorem message_toValue (depth : Nat) (m : Message) :
    message ⟨depth + 2, .ofValue m.toValue⟩ = .ok m := by
  have hplain := m.all_isPlain_toValue
  rw [m.toValue_eq, Value.all_object_iff] at hplain
  have hmembers := messageMembers_ofMembers (fun field hfield =>
    datum_ofValue (hplain.2 field (List.mem_cons_of_mem _ hfield)) (m.depth_members depth field hfield))
    m.ne_member m.tag []
  rw [m.toValue_eq, Item.ofValue, Item.ofMembers]
  simp [message, deeper, messageMembers, datum, isTagKey, messageTag_ofValue, hmembers, bind,
    Except.bind, Functor.map, Except.map]
  exact m.ofFields_members

end Node

end Cbor

end TraceJournal
