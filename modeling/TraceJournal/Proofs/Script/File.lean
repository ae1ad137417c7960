import TraceJournal.Proofs.Script.Form
import TraceJournal.Proofs.Script.Lines
import TraceJournal.Proofs.Storage.Files
import TraceJournal.Script.File

/-!
# Script files that come back

The extension of a path decides how a script is written there and how it is read, and the two decide
alike. What is lost is what the format has no place for, and metadata whose names are too long for the
reader of CBOR.
-/
namespace TraceJournal

namespace Script

open ScriptFormat (extension? ofExtension?)

variable {s : Script} {path : String} {fs fs' : FileSystem} {format : ScriptFormat}

theorem ofBytes_lines (s : Script) :
    ofBytes .lines (s.toBytes .lines) = .ok (ofMessages s.messages) := by
  have hall : (s.messages.map Except.ok).mapM id = (.ok s.messages : Except Failure (List Message)) :=
    mapM_map_eq_ok fun _ _ => rfl
  rw [ofBytes, toBytes, MessageLines.read_write, ofLines, hall]
  rfl

theorem during_eq_ok_iff {ε α : Type} {cause : ε → Cause} {line : String} {result : Except ε α}
    {a : α} : during cause line result = .ok a ↔ result = .ok a := by
  cases result <;> simp [during, Except.mapError]

theorem save_eq_ok_iff : save path s fs = .ok fs' ↔
    fs.put path (s.toBytes ((extension? path >>= ofExtension?).getD .json)) = .ok fs' := by
  rw [save]
  cases extension? path >>= ofExtension? <;> exact during_eq_ok_iff

theorem fetch_of_save (h : save path s fs = .ok fs') :
    fs'.fetch path = .ok (s.toBytes ((extension? path >>= ofExtension?).getD .json)) :=
  FileSystem.fetch_of_put (save_eq_ok_iff.1 h)

theorem load_of_fetch {ext : String} {bytes : List UInt8} (hext : extension? path = some ext)
    (hformat : ofExtension? ext = some format) (hfetch : fs.fetch path = .ok bytes) :
    load path fs = ofBytes format bytes := by
  simp [load, hext, hformat, hfetch]

theorem of_load_eq_ok (h : load path fs = .ok s) :
    ∃ format bytes, extension? path >>= ofExtension? = some format ∧ fs.fetch path = .ok bytes ∧
      ofBytes format bytes = .ok s := by
  unfold load at h
  split at h
  · cases h
  · next ext hext =>
    split at h
    · cases h
    · next format hformat =>
      split at h
      · next bytes hfetch => exact ⟨format, bytes, by simp [hext, hformat], hfetch, h⟩
      · cases h
      · cases h

theorem load_of_save {ext : String} (hext : extension? path = some ext)
    (hformat : ofExtension? ext = some format) (h : save path s fs = .ok fs') :
    load path fs' = ofBytes format (s.toBytes format) := by
  have hfetch := fetch_of_save h
  simp only [hext, hformat, Option.bind_eq_bind, Option.bind_some, Option.getD_some] at hfetch
  exact load_of_fetch hext hformat hfetch

theorem load_refused
    (hext : ∀ ext, extension? path = some ext → ext ∉ ["json", "cbor", "jsonl", "ndjson"]) :
    extension? path >>= ofExtension? = none ∧
      ∃ text, ∀ disk, load path disk = .error (.of (.refused text)) := by
  cases hpath : extension? path with
  | none =>
    refine ⟨rfl, "path has no extension (expected .json, .cbor, .jsonl, or .ndjson)", fun disk => ?_⟩
    simp [load, hpath]
  | some ext =>
    have hformat : ofExtension? ext = none := by
      have hother := hext ext hpath
      unfold ofExtension?
      split <;> simp_all
    refine ⟨hformat,
      s!"unsupported script extension: {ext} (supported: .json, .cbor, .jsonl, .ndjson)",
      fun disk => ?_⟩
    simp [load, hpath, hformat]

/-- A script that is saved is loaded again: whole from JSON, and from CBOR if the first name of every
object in its metadata fits the reader's buffer; its messages from lines. Under any other extension it
is saved as JSON, and loading is refused before anything is read. -/
theorem load_save (hmetadata : ∀ v, s.metadata = some v → IsKept v) (hw : fs.Writable path) :
    ∃ fs', save path s fs = .ok fs' ∧
      (extension? path = some "json" → load path fs' = .ok s) ∧
      (extension? path = some "cbor" → s.toValue.all Value.isSized = true →
        (∀ v, s.metadata = some v → v.all Value.isNamed = true) → load path fs' = .ok s) ∧
      (extension? path = some "jsonl" ∨ extension? path = some "ndjson" →
        load path fs' = .ok (ofMessages s.messages)) ∧
      ((∀ ext, extension? path = some ext → ext ∉ ["json", "cbor", "jsonl", "ndjson"]) →
        fs'.fetch path = .ok (Json.pretty s.toValue) ∧
          ∃ text, ∀ disk, load path disk = .error (.of (.refused text))) := by
  obtain ⟨fs', hsave⟩ : ∃ fs', save path s fs = .ok fs' := by
    obtain ⟨fs', hput⟩ := hw.put (s.toBytes ((extension? path >>= ofExtension?).getD .json))
    exact ⟨fs', save_eq_ok_iff.2 hput⟩
  refine ⟨fs', hsave, fun hext => ?_, fun hext hsized hnamed => ?_, fun hext => ?_, fun hext => ?_⟩
  · rw [load_of_save hext rfl hsave, ofBytes, toBytes, json_read_pretty hmetadata]
    rfl
  · rw [load_of_save hext rfl hsave, ofBytes, toBytes, cbor_read_write hmetadata hnamed hsized]
    rfl
  · rcases hext with hext | hext
    · rw [load_of_save hext rfl hsave, ofBytes_lines]
    · rw [load_of_save hext rfl hsave, ofBytes_lines]
  · obtain ⟨hnone, hrefused⟩ := load_refused hext
    have hfetch := fetch_of_save hsave
    rw [hnone] at hfetch
    exact ⟨hfetch, hrefused⟩

theorem writable_empty : FileSystem.empty.Writable "notes.CBOR" where
  named := by decide
  file := by decide
  located := ⟨["home"], "notes.CBOR", by decide⟩
  entry_ne := by decide

theorem extension?_of_letters {found ext : String} (hpath : Path.extension? path = some found)
    (hletters : found.toList.map Text.lowerCase = ext.toList) : extension? path = some ext := by
  rw [extension?, hpath, Option.map_some, String.toList_injective (String.toList_map.trans hletters)]

theorem extension?_notes : extension? "notes.CBOR" = some "cbor" :=
  @extension?_of_letters _ "CBOR" _ (by decide) (by decide)

/-- A dump request with metadata, in CBOR. -/
def notes : Script :=
  ⟨scriptVersion, [.dumpTrace 1 7],
    some (.object [("a", .list [.int (-1), .null]), ("\u00E9", .text "\n")])⟩

theorem load_save_notes :
    ∃ fs', save "notes.CBOR" notes .empty = .ok fs' ∧ load "notes.CBOR" fs' = .ok notes := by
  have hkept : ∀ v, notes.metadata = some v → IsKept v := by
    rintro v ⟨⟩
    exact ⟨by simp, by decide, by decide⟩
  have hnamed : ∀ v, notes.metadata = some v → v.all Value.isNamed = true := by
    rintro v ⟨⟩
    decide
  obtain ⟨fs', hsave, -, hcbor, -⟩ := load_save (s := notes) hkept writable_empty
  exact ⟨fs', hsave, hcbor extension?_notes (by decide) hnamed⟩

/-- A script without messages and with a number of metadata, under a name of `length` letters. -/
def labelled (length : Nat) : Script :=
  ⟨scriptVersion, [], some (.object [(String.ofList (List.replicate length 'a'), .int 1)])⟩

theorem isKept_labelled (length : Nat) : ∀ v, (labelled length).metadata = some v → IsKept v := by
  rintro v ⟨⟩
  exact ⟨by simp, rfl, Nat.le_of_ble_eq_true rfl⟩

/-- Under a long name it can be saved in CBOR, but what is saved cannot be loaded. -/
theorem load_labelled {length : Nat} (hlong : Cbor.Item.maxName < length)
    (hlength : length < 0x10000000000000000) :
    ∃ fs', save "notes.CBOR" (labelled length) .empty = .ok fs' ∧
      load "notes.CBOR" fs' = .error ⟨["deserialize CBOR script"],
        .cbor (.shape (.wrongType (.word "string") "str"))⟩ := by
  have hsize := Text.utf8ByteSize_replicate (c := 'a') (by decide) length
  have hsized : (labelled length).toValue.all Value.isSized = true := by
    simp [labelled, toValue, Value.all, Value.allItems, Value.allMembers, Value.isSized, Value.nat,
      hsize, hlength]
    decide
  have hplain := all_isPlain_toValue fun v hv =>
    Value.all_isPlain (isKept_labelled length v hv).isExact
  have hread := cbor_read_longName rfl hplain hsized (hsize.symm ▸ hlong)
  obtain ⟨fs', hput⟩ := writable_empty.put ((labelled length).toBytes .cbor)
  have hsave : save "notes.CBOR" (labelled length) .empty = .ok fs' := by
    rw [save_eq_ok_iff, extension?_notes]
    exact hput
  refine ⟨fs', hsave, ?_⟩
  rw [load_of_save extension?_notes rfl hsave, ofBytes, toBytes, hread]
  rfl

theorem load_save_longName :
    (∀ v, (labelled 4097).metadata = some v → IsKept v) ∧ FileSystem.empty.Writable "notes.CBOR" ∧
      extension? "notes.CBOR" = some "cbor" ∧
      ∃ fs', save "notes.CBOR" (labelled 4097) .empty = .ok fs' ∧
        load "notes.CBOR" fs' = .error ⟨["deserialize CBOR script"],
          .cbor (.shape (.wrongType (.word "string") "str"))⟩ :=
  ⟨isKept_labelled 4097, writable_empty, extension?_notes, load_labelled (by decide) (by decide)⟩

end Script

end TraceJournal
