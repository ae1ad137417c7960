import TraceJournal.Cbor.Token
import TraceJournal.Cbor.Writer
import TraceJournal.Proofs.Value

/-!
# Written CBOR as tokens

A head says its argument in as many bytes as that needs, up to eight. Data whose parts are no longer
than a head can say reads as one token for each head.
-/
namespace TraceJournal

/-- Whether a list, an object or a text is no longer than eight bytes can say, as all are that a machine
can hold, and so the names of an object. -/
def Value.isSized : Value → Bool
  | .text s => decide (s.utf8ByteSize < 0x10000000000000000)
  | .list items => decide (items.length < 0x10000000000000000)
  | .object members =>
    decide (members.length < 0x10000000000000000) &&
      members.all fun m => decide (m.1.utf8ByteSize < 0x10000000000000000)
  | _ => true

namespace Cbor

theorem toNat_initial (major : Major) {low : Nat} (h : low < 32) :
    (initial major low).toNat = major.code * 32 + low := by
  have hcode : major.code < 8 := by cases major <;> decide
  rw [initial, UInt8.toNat_ofNat']
  omega

theorem ofHead_initial (major : Major) {low : Nat} (h : low < 32) {rest tail : List UInt8}
    {argument : Option Nat} (harg : Token.argument? low rest = .ok (argument, tail)) :
    Token.ofHead (initial major low) rest = Token.ofArgument major.code low argument tail := by
  have hlow : (initial major low).toNat % 32 = low := by
    rw [toNat_initial major h]
    omega
  have hmajor : (initial major low).toNat / 32 = major.code := by
    rw [toNat_initial major h]
    omega
  rw [Token.ofHead, hlow, hmajor, harg]

theorem argument?_of_lt {n : Nat} (h : n < 24) (rest : List UInt8) :
    Token.argument? n rest = .ok (some n, rest) := by
  unfold Token.argument?
  split <;> first | omega | exact if_pos h

theorem collect_head (major : Major) {n : Nat} (h : n < 0x10000000000000000) (rest : List UInt8) :
    ∃ low, ∀ done, collect done (head major n ++ rest) =
      collect ((Token.ofArgument major.code low (some n) rest).1 :: done)
        (Token.ofArgument major.code low (some n) rest).2 := by
  have read {low : Nat} (hlow : low < 32) {tail : List UInt8}
      (harg : Token.argument? low (tail ++ rest) = .ok (some n, rest)) (done : List Token) :
      collect done (initial major low :: tail ++ rest) =
        collect ((Token.ofArgument major.code low (some n) rest).1 :: done)
          (Token.ofArgument major.code low (some n) rest).2 := by
    rw [List.cons_append, collect, ofHead_initial major hlow harg]
  have wide (width : Nat) (hn : n < Nat.pow 256 width) :
      BigEndian.read? width (BigEndian.digits width n ++ rest) = some (n, rest) := by
    rw [BigEndian.read?_digits_append, Nat.mod_eq_of_lt hn]
  unfold head
  split
  · next hn => exact ⟨n, read (by omega) (argument?_of_lt hn rest)⟩
  split
  · next hn => exact ⟨24, read (by decide) (by simp [Token.argument?, wide 1 hn])⟩
  split
  · next hn => exact ⟨25, read (by decide) (by simp [Token.argument?, wide 2 hn])⟩
  split
  · next hn => exact ⟨26, read (by decide) (by simp [Token.argument?, wide 4 hn])⟩
  · exact ⟨27, read (by decide) (by simp [Token.argument?, wide 8 h])⟩

mutual

def tokensOf : Value → List Token
  | .null => [.simple 22]
  | .bool true => [.simple 21]
  | .bool false => [.simple 20]
  | .int n => if n < 0 then [.negative (-1 - n).toNat] else [.unsigned n.toNat]
  | .float x => [.float x]
  | .text s => [.text s.utf8ByteSize (.ok s)]
  | .list items => .list (some items.length) :: tokensOfItems items
  | .object members => .map (some members.length) :: tokensOfMembers members

def tokensOfItems : List Value → List Token
  | [] => []
  | item :: items => tokensOf item ++ tokensOfItems items

def tokensOfMembers : List (String × Value) → List Token
  | [] => []
  | (name, value) :: members =>
    .text name.utf8ByteSize (.ok name) :: tokensOf value ++ tokensOfMembers members

end

/-- Bytes that are read as these tokens, whatever follows them. -/
def Reads (bytes : List UInt8) (tokens : List Token) : Prop :=
  ∀ done rest, collect done (bytes ++ rest) = collect (tokens.reverse ++ done) rest

namespace Reads

theorem nil : Reads [] [] := fun _ _ => rfl

theorem append {as bs : List UInt8} {ts us : List Token} (ha : Reads as ts) (hb : Reads bs us) :
    Reads (as ++ bs) (ts ++ us) := by
  intro done rest
  rw [List.append_assoc, ha, hb, List.reverse_append, List.append_assoc]

theorem head (major : Major) {n : Nat} (h : n < 0x10000000000000000) {token : Token}
    (htoken : ∀ low rest, Token.ofArgument major.code low (some n) rest = (token, rest)) :
    Reads (head major n) [token] := by
  intro done rest
  obtain ⟨low, hcollect⟩ := collect_head major h rest
  rw [hcollect, htoken, List.reverse_singleton, List.singleton_append]

theorem simple {n : Nat} (h : n < 24) : Reads [initial .other n] [.simple n] := by
  intro done rest
  have hother : Token.ofOther n n = .simple n := by
    rw [Token.ofOther, if_neg (by omega), if_neg (by omega), if_neg (by omega)]
  rw [List.singleton_append, collect, ofHead_initial .other (by omega) (argument?_of_lt h rest)]
  change collect (Token.ofOther n n :: done) rest = _
  rw [hother]
  rfl

theorem text {s : String} (h : s.utf8ByteSize < 0x10000000000000000) :
    Reads (writeText s) [.text s.utf8ByteSize (.ok s)] := by
  intro done rest
  obtain ⟨low, hcollect⟩ := collect_head .text h (Text.utf8 s ++ rest)
  have hcontent : Token.ofText s.utf8ByteSize (Text.utf8 s ++ rest) =
      (.text s.utf8ByteSize (.ok s), rest) := by
    have htake : take? s.utf8ByteSize (Text.utf8 s ++ rest) = some (Text.utf8 s, rest) :=
      take?_append (Text.utf8 s) rest
    rw [Token.ofText, htake]
    simp only [Text.ofUtf8?_utf8]
  have htoken : Token.ofArgument Major.text.code low (some s.utf8ByteSize) (Text.utf8 s ++ rest) =
      (.text s.utf8ByteSize (.ok s), rest) := hcontent
  rw [htoken] at hcollect
  rw [writeText, List.append_assoc]
  exact hcollect done

theorem int {n : Int} (h : -0x8000000000000000 ≤ n ∧ n < 0x10000000000000000) :
    Reads (writeInt n) (tokensOf (.int n)) := by
  rw [writeInt, tokensOf]
  split
  · exact head .negative (by omega) fun _ _ => rfl
  · exact head .unsigned (by omega) fun _ _ => rfl

theorem writeItems {items : List Value} (h : ∀ v ∈ items, Reads (write v) (tokensOf v)) :
    Reads (writeItems items) (tokensOfItems items) := by
  induction items with
  | nil => exact nil
  | cons item items ih =>
    obtain ⟨hitem, hitems⟩ := List.forall_mem_cons.1 h
    exact hitem.append (ih hitems)

theorem writeMembers {members : List (String × Value)}
    (hnames : ∀ m ∈ members, m.1.utf8ByteSize < 0x10000000000000000)
    (h : ∀ m ∈ members, Reads (write m.2) (tokensOf m.2)) :
    Reads (writeMembers members) (tokensOfMembers members) := by
  induction members with
  | nil => exact nil
  | cons m members ih =>
    obtain ⟨hname, hnames⟩ := List.forall_mem_cons.1 hnames
    obtain ⟨hm, hmembers⟩ := List.forall_mem_cons.1 h
    exact ((text hname).append hm).append (ih hnames hmembers)

/-- Data that a machine can hold is read as its tokens. -/
theorem write {v : Value} (hplain : v.all Value.isPlain = true) (hsized : v.all Value.isSized = true) :
    Reads (write v) (tokensOf v) := by
  induction v with
  | null => exact simple (by decide)
  | bool b => cases b <;> exact simple (by decide)
  | int n => exact int (by simpa [Value.all, Value.isPlain] using hplain)
  | float x => simp [Value.all, Value.isPlain] at hplain
  | text s => exact text (by simpa [Value.all, Value.isSized] using hsized)
  | list items ih =>
    obtain ⟨-, hplain⟩ := Value.all_list_iff.1 hplain
    obtain ⟨hlength, hsized⟩ := Value.all_list_iff.1 hsized
    have hhead := head .list (of_decide_eq_true hlength) fun _ _ => rfl
    exact hhead.append (writeItems fun v hv => ih v hv (hplain v hv) (hsized v hv))
  | object members ih =>
    obtain ⟨-, hplain⟩ := Value.all_object_iff.1 hplain
    obtain ⟨hsizes, hsized⟩ := Value.all_object_iff.1 hsized
    obtain ⟨hlength, hnames⟩ : members.length < 0x10000000000000000 ∧
        ∀ m ∈ members, m.1.utf8ByteSize < 0x10000000000000000 := by
      simpa [Value.isSized] using hsizes
    have hhead := head .map hlength fun _ _ => rfl
    exact hhead.append (writeMembers hnames fun m hm => ih m hm (hplain m hm) (hsized m hm))

end Reads

theorem tokens_write {v : Value} (hplain : v.all Value.isPlain = true)
    (hsized : v.all Value.isSized = true) : tokens (write v) = tokensOf v := by
  have hreads := Reads.write hplain hsized [] []
  rw [List.append_nil, List.append_nil, collect, List.reverse_reverse] at hreads
  exact hreads

end Cbor

end TraceJournal
