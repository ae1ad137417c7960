import TraceJournal.Proofs.Storage.Keeping

/-!
# A disk with trouble

A file system on which creating a directory or copying a file may fail at any time, before anything is
done or in the middle of it. What such a medium and the plain file system have in common is all that
logs and their copies rely on.
-/
namespace TraceJournal

/-- What goes wrong with one operation: nothing, or it is refused, or it fails when a part of it is
done. Of directories that are to lie in each other, so many are made then; of a copy, these bytes. -/
inductive Trouble where
  | none
  | refused (e : IoError)
  | partway (e : IoError) (made : Nat) (left : List UInt8)
deriving DecidableEq, Repr

/-- A disk, and what goes wrong with the next directories and copies. -/
structure Troubled where
  disk : FileSystem
  troubles : List Trouble

namespace Troubled

def leaving (m : Troubled) (disk : FileSystem) : Troubled := ⟨disk, m.troubles.tail⟩

def ensureDirectory (text : String) (m : Troubled) : Except IoError Unit × Troubled :=
  match m.troubles.headD .none with
  | .none =>
    let (result, disk) := m.disk.ensureDirectory text
    (result, m.leaving disk)
  | .refused e => (.error e, m.leaving m.disk)
  | .partway e made _ =>
    let p := Path.ofString text
    (.error e, m.leaving (m.disk.createDirectories made { p with parts := p.parts.take made }).2)

def copyFile (source target : String) (m : Troubled) : Except IoError Unit × Troubled :=
  match m.troubles.headD .none with
  | .none =>
    let (result, disk) := m.disk.copyFile source target
    (result, m.leaving disk)
  | .refused e => (.error e, m.leaving m.disk)
  | .partway e _ left =>
    match m.disk.put target left with
    | .ok disk => (.error e, m.leaving disk)
    | .error _ => (.error e, m.leaving m.disk)

/-- A log has no trouble with its file. -/
instance : Storage Troubled Nat where
  create path m :=
    let (result, disk) := m.disk.create path
    (result, { m with disk })
  writeAll file bytes m :=
    let (result, disk) := m.disk.writeAll file bytes
    (result, { m with disk })
  flush file m :=
    let (result, disk) := m.disk.flush file
    (result, { m with disk })

instance : Directories Troubled := ⟨ensureDirectory, copyFile⟩

end Troubled

/-- A medium with a disk. A log uses the disk as a file system; what becomes of directories and copies
may be decided otherwise, but at most the file that is copied to changes. -/
structure Backed {σ : Type} [Storage σ Nat] [Directories σ] (disk : σ → FileSystem) : Prop where
  create : ∀ {path : String} {m m' : σ} {result : Except IoError Nat},
    Storage.create path m = (result, m') → (disk m).create path = (result, disk m')
  writeAll : ∀ {file : Nat} {bytes : List UInt8} {m m' : σ} {result : Except IoError Unit},
    Storage.writeAll file bytes m = (result, m') →
      (disk m).writeAll file bytes = (result, disk m')
  ensureDirectory : ∀ {m : σ} (text : String) {place : List String}, (disk m).WellFormed →
    (disk m).Keeps place (disk (Directories.ensureDirectory text m).2) ∧
      (disk (Directories.ensureDirectory text m).2).opened = (disk m).opened
  copyFile : ∀ {m : σ} {source target : String} {number : Nat}, (disk m).WellFormed →
    (disk m).Leads source number → (disk m).place source ≠ (disk m).place target →
      (disk m).Copies target ((disk m).content number).toList
        (Directories.copyFile source target m).1 (disk (Directories.copyFile source target m).2)

theorem FileSystem.backed : Backed (id : FileSystem → FileSystem) where
  create h := h
  writeAll h := h
  ensureDirectory text _ hwf := keeps_ensureDirectory text hwf
  copyFile hwf hs hne := copyFile_spec hwf hs hne

theorem Troubled.backed : Backed Troubled.disk where
  create h := by
    cases h
    rfl
  writeAll h := by
    cases h
    rfl
  ensureDirectory {m} text place hwf := by
    simp only [Directories.ensureDirectory, Troubled.ensureDirectory]
    split
    · exact FileSystem.keeps_ensureDirectory text hwf
    · exact ⟨.refl hwf, rfl⟩
    · exact FileSystem.keeps_createDirectories _ _ hwf
  copyFile {m source target number} hwf hs hne := by
    simp only [Directories.copyFile, Troubled.copyFile]
    split
    · exact FileSystem.copyFile_spec hwf hs hne
    · exact ⟨.refl hwf, rfl, fun h => nomatch h⟩
    · split
      · next hput =>
        obtain ⟨hkeeps, hopened⟩ := FileSystem.keeps_put hwf hput
        exact ⟨hkeeps, hopened, fun h => nomatch h⟩
      · exact ⟨.refl hwf, rfl, fun h => nomatch h⟩

end TraceJournal
