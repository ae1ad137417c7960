import TraceJournal.Log.Snapshot
import TraceJournal.Proofs.Log.OnDisk
import TraceJournal.Proofs.Text.Digits

/-!
# Where snapshots go

The file of a snapshot lies in the directory of the snapshots, under a name that tells its number, so
no two snapshots lie at one place. Asked for a snapshot of an open log that lies elsewhere, the
exporter makes a copy of it or changes nothing about its own count.
-/
namespace TraceJournal

namespace Snapshots

def fileName (n : Nat) : String := s!"trace-dp-{Text.padded 4 n}.bin"

def file (directory : String) (n : Nat) : String := Path.join directory (fileName n)

theorem target_eq (s : Snapshots) : s.target = file s.directory s.next.toNat := rfl

theorem toList_fileName (n : Nat) : (fileName n).toList =
    "trace-dp-".toList ++ (Text.padded 4 n).toList ++ ".bin".toList := by
  rw [← String.toList_append, ← String.toList_append]
  rfl

theorem fileName_injective : Function.Injective fileName := by
  intro m n h
  have hlist := congrArg String.toList h
  rw [toList_fileName, toList_fileName, List.append_assoc, List.append_assoc,
    List.append_cancel_left_eq, List.append_cancel_right_eq] at hlist
  exact Text.padded_injective 4 (String.toList_injective hlist)

example : fileName 7 = "trace-dp-0007.bin" ∧ fileName 12345 = "trace-dp-12345.bin" := by decide

theorem slash_not_mem_fileName (n : Nat) : '/' ∉ (fileName n).toList := by
  rw [toList_fileName, List.mem_append, List.mem_append]
  rintro ((h | h) | h)
  · exact absurd h (by decide)
  · exact absurd (Text.isDigit_of_mem_padded h) (by decide)
  · exact absurd h (by decide)

theorem place_file (fs : FileSystem) (directory : String) (n : Nat) :
    fs.place (file directory n) = fs.place directory ++ [fileName n] := by
  have hne {name : String} (hname : name.toList.head? ≠ some 't') : fileName n ≠ name := by
    rintro rfl
    rw [toList_fileName] at hname
    exact hname rfl
  exact FileSystem.place_join (hne (by decide)) (slash_not_mem_fileName n) (hne (by decide))
    (hne (by decide)) fs directory

theorem place_file_injective (fs : FileSystem) (directory : String) :
    Function.Injective fun n => fs.place (file directory n) := by
  intro m n h
  dsimp only at h
  rw [place_file, place_file, List.append_cancel_left_eq, List.singleton_inj] at h
  exact fileName_injective h

section

variable {σ : Type} [Storage σ Nat] [Directories σ] {disk : σ → FileSystem} {path : String}
  {file : Nat} {bytes : List UInt8} {medium : σ} {s : Snapshots}

/-- Whether the directory of the snapshots can be made and the log at a path copied to the file with
this number there. -/
def CanCopy (path directory : String) (n : Nat) (medium : σ) : Prop :=
  let made := Directories.ensureDirectory directory medium
  made.1 = .ok () ∧ (Directories.copyFile path (Snapshots.file directory n) made.2).1 = .ok ()

/-- What comes of a snapshot of an open log that holds these bytes. -/
inductive Delivers (disk : σ → FileSystem) (path : String) (bytes : List UInt8) (s : Snapshots)
    (medium : σ) : Except IoError Unit → Snapshots → σ → Prop
  | copied {medium' : σ} (hcan : CanCopy path s.directory s.next.toNat medium)
      (hkeeps : (disk medium).Keeps ((disk medium).place s.target) (disk medium'))
      (hopened : (disk medium').opened = (disk medium).opened)
      (hfetch : (disk medium').fetch s.target = .ok bytes) :
      Delivers disk path bytes s medium (.ok ()) { s with next := s.next + 1 } medium'
  | failed {e : IoError} {medium' : σ} (hcan : ¬CanCopy path s.directory s.next.toNat medium)
      (hkeeps : (disk medium).Keeps ((disk medium).place s.target) (disk medium'))
      (hopened : (disk medium').opened = (disk medium).opened) :
      Delivers disk path bytes s medium (.error e) s medium'

omit [Storage σ Nat] in
/-- Whether it succeeds or not, at most the file of the snapshot changes. -/
theorem Delivers.keeps {result : Except IoError Unit} {s' : Snapshots} {medium' : σ}
    (h : Delivers disk path bytes s medium result s' medium') :
    (disk medium).Keeps ((disk medium).place s.target) (disk medium') ∧
      (disk medium').opened = (disk medium).opened := by
  cases h with
  | copied _ hkeeps hopened => exact ⟨hkeeps, hopened⟩
  | failed _ hkeeps hopened => exact ⟨hkeeps, hopened⟩

omit [Storage σ Nat] in
theorem deliver_closed {request : ExportRequest} (h : request.mode = .closed) (s : Snapshots)
    (medium : σ) : s.deliver request medium = (.ok (), s, medium) := by
  unfold deliver
  split
  · next hmode => simp [h] at hmode
  · rfl

theorem deliver_opened (hb : Backed disk) (h : (disk medium).HoldsOpen path file bytes)
    (hne : (disk medium).place path ≠ (disk medium).place s.target) (count : UInt32) :
    let delivered := s.deliver ⟨some path, count, .opened⟩ medium
    Delivers disk path bytes s medium delivered.1 delivered.2.1 delivered.2.2 := by
  intro delivered
  obtain ⟨hkeeps, hopened⟩ := hb.ensureDirectory s.directory h.wellFormed
  rcases hmade : Directories.ensureDirectory s.directory medium with ⟨e | _, made⟩
  · have hdelivered : delivered = (.error e, s, made) := by simp [delivered, deliver, hmade]
    rw [hdelivered]
    rw [hmade] at hkeeps hopened
    exact .failed (by simp [CanCopy, hmade]) hkeeps hopened
  · rw [hmade] at hkeeps hopened
    dsimp only at hkeeps hopened
    have hheld := h.of_keeps hkeeps hopened hne
    obtain ⟨number, hleads, -, hbytes⟩ := hheld.held
    have hapart : (disk made).place path ≠ (disk made).place s.target := by
      rwa [hkeeps.place_eq, hkeeps.place_eq]
    have hcopies := hb.copyFile hheld.wellFormed hleads hapart
    rw [hbytes] at hcopies
    obtain ⟨hkeeps', hopened', hfetch⟩ := hcopies
    rw [hkeeps.place_eq] at hkeeps'
    rcases hcopy : Directories.copyFile path s.target made with ⟨e | _, medium'⟩
    · have hdelivered : delivered = (.error e, s, medium') := by
        simp [delivered, deliver, hmade, hcopy]
      rw [hdelivered]
      rw [hcopy] at hkeeps' hopened'
      exact .failed (by simp [CanCopy, hmade, ← target_eq, hcopy]) (hkeeps.trans hkeeps')
        (hopened'.trans hopened)
    · have hdelivered : delivered = (.ok (), { s with next := s.next + 1 }, medium') := by
        simp [delivered, deliver, hmade, hcopy]
      rw [hdelivered]
      rw [hcopy] at hkeeps' hopened' hfetch
      exact .copied (by simp [CanCopy, hmade, ← target_eq, hcopy]) (hkeeps.trans hkeeps')
        (hopened'.trans hopened) (hfetch rfl)

/-- What the exporter of a log does: nothing while the log is closed, and else what it does for a log
that holds these bytes. -/
inductive Serves (disk : σ → FileSystem) (path : String) (held : List UInt8) (w : Writer σ Nat)
    (s : Snapshots) : Except IoError Unit → Snapshots → σ → Prop
  | closed (hf : w.file = none) : Serves disk path held w s (.ok ()) s w.medium
  | opened {file : Nat} {result : Except IoError Unit} {s' : Snapshots} {medium : σ}
      (hn : w.fileName = some path) (hf : w.file = some file)
      (hheld : (disk w.medium).HoldsOpen path file held) (hc : w.byteCount.toNat = held.length)
      (hd : Delivers disk path held s w.medium result s' medium) :
      Serves disk path held w s result s' medium

variable {held : List UInt8} {l : Logger σ Nat Snapshots} {s' : Snapshots}
  {result : Except IoError Unit}

theorem deliver_serves (hb : Backed disk) (h : l.writer.OnDisk disk path held)
    (hne : (disk l.writer.medium).place path ≠ (disk l.writer.medium).place s.target)
    (hd : Exporter.deliver l.exportRequest s l.writer.medium = (result, s', medium)) :
    Serves disk path held l.writer s result s' medium := by
  change s.deliver l.exportRequest l.writer.medium = _ at hd
  cases h with
  | closed hn hf hwf hnone =>
    have hmode : l.exportRequest.mode = .closed := by simp [Logger.exportRequest, Writer.mode, hf]
    rw [deliver_closed hmode] at hd
    cases hd
    exact .closed hf
  | opened hn hf hheld hc =>
    have hrequest : l.exportRequest = ⟨some path, l.writer.byteCount, .opened⟩ := by
      simp [Logger.exportRequest, Writer.mode, hf, hn]
    have hdelivers := deliver_opened hb hheld hne l.writer.byteCount
    rw [← hrequest, hd] at hdelivers
    exact .opened hn hf hheld hc hdelivers

omit [Storage σ Nat] in
theorem Serves.exporter_eq {w : Writer σ Nat} (hs : Serves disk path held w s result s' medium) :
    s' = s ∨ s' = { s with next := s.next + 1 } := by
  cases hs with
  | closed => exact .inl rfl
  | opened hn hf hheld hc hd =>
    cases hd with
    | copied => exact .inr rfl
    | failed => exact .inl rfl

omit [Storage σ Nat] in
/-- The log is not disturbed by the exporter. -/
theorem Serves.onDisk {w : Writer σ Nat} (hs : Serves disk path held w s result s' medium)
    (h : w.OnDisk disk path held)
    (hne : (disk w.medium).place path ≠ (disk w.medium).place s.target) :
    Writer.OnDisk disk path { w with medium } held ∧ (disk medium).home = (disk w.medium).home := by
  cases hs with
  | closed => exact ⟨h, rfl⟩
  | opened hn hf hheld hc hd =>
    obtain ⟨hkeeps, hopened⟩ := hd.keeps
    exact ⟨.opened hn hf (hheld.of_keeps hkeeps hopened hne) hc, hkeeps.home_eq⟩

end

end Snapshots

end TraceJournal
