import TraceJournal.CommandLine.Run
import TraceJournal.Proofs.CommandLine.Session
import TraceJournal.Proofs.Json.Printed
import TraceJournal.Proofs.Json.Trees
import TraceJournal.Proofs.Message.Form
import TraceJournal.Proofs.Record.Splitting
import TraceJournal.Proofs.Storage.Files

/-!
# Decoding a log file

What a log file says is written as text, one record a line, as far as the file can be read. Nothing is
lost on the way: the lines are read as the records, and these are encoded as the bytes.
-/
namespace TraceJournal

namespace Record

variable {bytes : List UInt8} {rs ss : List Record}

theorem json_read_compact (r : Record) : Json.read Record.read (Json.compact r.toValue) = .ok r :=
  Json.read_write r.all_isPlain_toValue (Json.Node.shows_ofValue.record 125 r) .compact

/-- Whether bytes start with records, each of them as the wire has it. -/
def Starts (bytes : List UInt8) (rs : List Record) : Prop :=
  (∀ r ∈ rs, r.Encodable) ∧ rs.flatMap wire <+: bytes

/-- Whether these are all records that the bytes start with. -/
structure Longest (bytes : List UInt8) (rs : List Record) : Prop where
  starts : Starts bytes rs
  longest : ∀ ss, Starts bytes ss → ss <+: rs

theorem Longest.eq (h : Longest bytes rs) (h' : Longest bytes ss) : rs = ss :=
  (h'.longest rs h.starts).eq_of_length_le (h.longest ss h'.starts).length_le

end Record

namespace Splits

variable {bytes : List UInt8} {rs : List Record} {failure : Option DecodeError}

theorem toLongest (h : Splits 0 bytes rs failure) : Record.Longest bytes rs where
  starts := by
    rcases h.rest with ⟨rest, hbytes, -⟩
    exact ⟨h.encodable, rest, hbytes.symm⟩
  longest := by
    rintro ss ⟨hss, more, hmore⟩
    exact h.isPrefix hss hmore.symm

theorem failure_eq_none_iff (h : Splits 0 bytes rs failure) :
    failure = none ↔ rs.flatMap Record.wire = bytes := by
  rcases h.rest with ⟨rest, rfl, ⟨rfl, rfl⟩ | ⟨e, rfl, hne, -⟩⟩
  · simp
  · simpa using hne

theorem decodeAt_of_failure {e : DecodeError} (h : Splits 0 bytes rs (some e)) :
    Record.decodeAt (rs.flatMap Record.wire).length (bytes.drop (rs.flatMap Record.wire).length) =
      .error e := by
  rcases h.rest with ⟨rest, rfl, ⟨hnone, -⟩ | ⟨e', heq, -, herror⟩⟩
  · cases hnone
  · cases heq
    rwa [List.drop_left, ← Nat.zero_add (List.length _)]

end Splits

namespace CommandLine

variable {bytes : List UInt8} {rs : List Record} {failure : Option DecodeError} {log path : String}
  {disk ready after : FileSystem} {arguments : List String}

def failure? : Except DecodeError Record → Option DecodeError
  | .ok _ => none
  | .error e => some e

theorem decodePrefix_eq (h : Splits 0 bytes rs failure) : decodePrefix bytes = (rs, failure) := by
  have hitems := h.items_eq
  change (RecordReader.start bytes).items.map (·.1) = _ at hitems
  change (List.filterMap (Except.toOption ∘ Prod.fst) _, List.findSome? (failure? ∘ Prod.fst) _) = _
  rw [← List.filterMap_map, ← List.findSome?_map, hitems]
  have hrecords : (rs.map .ok).findSome? failure? = none := by
    simp [List.findSome?_eq_none_iff, failure?]
  cases failure with
  | none => simp [hrecords, Function.comp_def, Except.toOption]
  | some e => simp [hrecords, Function.comp_def, Except.toOption, failure?]

/-- The text of records is a line for each of them, and every line is ended. -/
theorem recordLines_eq (rs : List Record) :
    recordLines rs = Text.ended (rs.map fun r => Json.compact r.toValue) := by
  rw [recordLines, Text.ended, List.flatMap_map]

theorem lines_recordLines (rs : List Record) :
    Text.lines (recordLines rs) = rs.map fun r => Json.compact r.toValue := by
  rw [recordLines_eq]
  apply Text.lines_ended
  exact List.forall_mem_map.2 fun r _ => (Json.printed_compact r.all_isPlain_toValue).newline_notMem

/-- What decoding does on a disk where the output can be put: the lines are there whether it fails or
not. -/
theorem outcome_decode (hsplits : Splits 0 bytes rs failure) (hfetch : disk.fetch log = .ok bytes)
    (hparent : disk.ensureDirectory (Path.outer path) = (.ok (), ready))
    (hput : ready.put path (recordLines rs) = .ok after) :
    (decode log (some path)).outcome disk =
      ⟨failure.elim .success fun e => .failed ⟨[s!"decoding {log}"], .decode e⟩,
        failure.elim (Text.utf8 s!"Decoded {rs.length} records → {path}\n") fun _ => [], after⟩ := by
  have hask : (Job.ask fun disk => during .io s!"read {log}" (disk.fetch log)).on ⟨disk, []⟩ =
      (.ok bytes, ⟨disk, []⟩) := by
    rw [Job.on_ask, hfetch]
    rfl
  have hprepare : (Job.prepareParent path).on ⟨disk, []⟩ = (.ok (), ⟨ready, []⟩) := by
    rw [Job.on_prepareParent, hparent]
    rfl
  have hchange : (Job.change fun disk => during .io s!"create {path}"
      (disk.put path (recordLines rs))).on ⟨ready, []⟩ = (.ok (), ⟨after, []⟩) :=
    Job.on_change_ok (congrArg (during .io s!"create {path}") hput)
  rw [Job.outcome_eq, decode, Job.on_bind_ok hask, decodePrefix_eq hsplits]
  dsimp only
  rw [Job.on_bind_ok hprepare, Job.on_bind_ok hchange]
  cases failure <;> rfl

/-- Whether a file can be made under a path, once the directory that it lies in is there. -/
def Receives (disk : FileSystem) (path : String) : Prop :=
  ∃ ready, disk.ensureDirectory (Path.outer path) = (.ok (), ready) ∧
    ready.Writable path

/-- Whatever the log file holds, the output has one line for each record of the longest beginning that
is made of records, in order. They are read as the records, which any encoder turns into that
beginning. The command succeeds exactly if it is all there is; otherwise it fails with what is wrong
behind it, and the lines are there all the same. -/
theorem run_decode (encoder : Encoder)
    (harguments : Invocation.read? arguments = some (.decode log (some path)))
    (hfetch : disk.fetch log = .ok bytes) (hpath : Receives disk path) :
    ∃ rs text, Record.Longest bytes rs ∧
      (run arguments disk).disk.fetch path = .ok text ∧
      text = Text.ended (Text.lines text) ∧
      (Text.lines text).map (Json.read Record.read) = rs.map .ok ∧
      encoder.encodeAll rs = .ok (rs.flatMap Record.wire) ∧
      ((run arguments disk).status = .success ↔ rs.flatMap Record.wire = bytes) ∧
      (rs.flatMap Record.wire ≠ bytes → ∃ e,
        Record.decodeAt (rs.flatMap Record.wire).length
          (bytes.drop (rs.flatMap Record.wire).length) = .error e ∧
        (run arguments disk).status = .failed ⟨[s!"decoding {log}"], .decode e⟩) := by
  rcases exists_splits 0 bytes with ⟨rs, failure, hsplits⟩
  rcases hpath with ⟨ready, hparent, hwritable⟩
  rcases hwritable.put (recordLines rs) with ⟨after, hput⟩
  have hrun : run arguments disk = (decode log (some path)).outcome disk := by
    rw [run, harguments]
    rfl
  rw [hrun, outcome_decode hsplits hfetch hparent hput]
  refine ⟨rs, recordLines rs, hsplits.toLongest, FileSystem.fetch_of_put hput, ?_, ?_, ?_, ?_, ?_⟩
  · rw [lines_recordLines, recordLines_eq]
  · simp [lines_recordLines, Record.json_read_compact]
  · exact Encoder.encodeAll_eq_ok_iff.2 ⟨hsplits.encodable, rfl⟩
  · rw [← hsplits.failure_eq_none_iff]
    cases failure <;> simp
  · rw [← hsplits.failure_eq_none_iff.ne]
    intro hne
    rcases Option.ne_none_iff_exists'.1 hne with ⟨e, rfl⟩
    exact ⟨e, hsplits.decodeAt_of_failure, rfl⟩

/-- A log file of one record and a byte that starts no other. -/
def tornLog : List UInt8 := (default : Record).wire ++ [0xFF]

def tornDisk : FileSystem :=
  ⟨["home"], [(["home", "a.bin"], .file 0)], [(0, .ofList tornLog)], []⟩

theorem receives_tornDisk : Receives tornDisk "b.jsonl" := by
  have hparent : Path.outer "b.jsonl" = "" := by decide
  refine ⟨tornDisk, by rw [hparent]; rfl, ?_⟩
  exact ⟨rfl, by decide, ⟨["home"], "b.jsonl", rfl⟩, by decide⟩

theorem splits_tornLog : Splits 0 tornLog [default] (some (.truncated 18 18 1)) :=
  .record (by decide) (.broken (by decide) rfl)

/-- The record is written, and decoding fails behind it. -/
theorem run_decode_torn :
    ∃ text, (run ["decode", "--log", "a.bin", "--out", "b.jsonl"] tornDisk).disk.fetch "b.jsonl" =
        .ok text ∧
      (Text.lines text).map (Json.read Record.read) = [.ok default] ∧
      (run ["decode", "--log", "a.bin", "--out", "b.jsonl"] tornDisk).status =
        .failed ⟨["decoding a.bin"], .decode (.truncated 18 18 1)⟩ := by
  have harguments : Invocation.read? ["decode", "--log", "a.bin", "--out", "b.jsonl"] =
      some (.decode "a.bin" (some "b.jsonl")) := rfl
  rcases run_decode .fresh harguments rfl receives_tornDisk with
    ⟨rs, text, hlongest, hfetch, -, hlines, -, -, hfailed⟩
  cases hlongest.eq splits_tornLog.toLongest
  rcases hfailed (by decide) with ⟨e, herror, hstatus⟩
  cases splits_tornLog.decodeAt_of_failure.symm.trans herror
  exact ⟨text, hfetch, hlines, hstatus⟩

end CommandLine

end TraceJournal
