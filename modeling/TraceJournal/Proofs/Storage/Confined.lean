import TraceJournal.Proofs.Storage.Keeping

/-!
# Files that are left alone

What is done to the file at one place neither changes a file that is at another place nor makes one
there. Directories may come to be where nothing was.
-/
namespace TraceJournal

namespace FileSystem

variable {fs fs' fs'' : FileSystem} {place other : List String} {text : String}
  {number : Nat} {bytes : List UInt8} {p : Path}

def fileAt (fs : FileSystem) (place : List String) : Option (List UInt8) :=
  match fs.entry? place with
  | some (.file number) => some (fs.content number).toList
  | _ => none

theorem fileAt_eq_none (h : ∀ number, fs.entry? place ≠ some (.file number)) :
    fs.fileAt place = none := by
  unfold fileAt
  split
  · next number hentry => exact (h number hentry).elim
  · rfl

theorem fileAt_congr (hentry : fs'.entry? other = fs.entry? other)
    (hcontent : ∀ n, fs.entry? other = some (.file n) → fs'.content n = fs.content n) :
    fs'.fileAt other = fs.fileAt other := by
  unfold fileAt
  rw [hentry]
  split
  · next number hfile => rw [hcontent number hfile]
  · rfl

theorem fileAt_addDirectory (hfree : fs.entry? place = none) (other : List String) :
    (fs.addEntry place .directory).fileAt other = fs.fileAt other := by
  by_cases hplace : other = place
  · subst hplace
    have hnew : entry? (fs.addEntry other .directory) other = some .directory := by
      rw [entry?_addEntry hfree, if_pos rfl]
    rw [fileAt_eq_none (by simp [hnew]), fileAt_eq_none (by simp [hfree])]
  · refine fileAt_congr ?_ fun _ _ => rfl
    rw [entry?_addEntry hfree, if_neg hplace]

/-- Another file than the one that is written holds what it held. -/
theorem fileAt_setContent (hwf : fs.WellFormed) (hentry : fs.entry? place = some (.file number))
    (c : Contents) (hne : other ≠ place) : (fs.setContent number c).fileAt other = fs.fileAt other := by
  refine fileAt_congr (entry?_setContent fs number c other) fun n hother => ?_
  exact (keeps_setContent hwf hentry c).content_eq hother hne

theorem Creates.fileAt_eq (h : Creates text fs number fs') (hwf : fs.WellFormed)
    (hne : other ≠ fs.place text) : fs'.fileAt other = fs.fileAt other := by
  have hkeeps := h.keeps hwf
  cases h with
  | emptied hleads => exact fileAt_setContent hwf hleads.entry _ hne
  | added hnamed hfile hlocate hentry =>
    refine fileAt_congr ?_ fun n hother => hkeeps.content_eq hother hne
    rw [entry?_addEntry (by simpa using hentry), if_neg hne, entry?_setContent]

theorem fileAt_createDirectory (h : fs.createDirectory p = .ok fs') (other : List String) :
    fs'.fileAt other = fs.fileAt other := by
  rw [createDirectory, bind_eq_ok_iff] at h
  obtain ⟨⟨here, _ | name⟩, -, h⟩ := h
  · cases h
  · dsimp only at h
    cases hentry : fs.entry? (here ++ [name]) with
    | some e => simp [hentry] at h
    | none =>
      rw [hentry] at h
      cases h
      exact fileAt_addDirectory hentry other

/-- Whether everything is kept but the file at `place`, and no file has come to be elsewhere. -/
structure Confined (place : List String) (fs fs' : FileSystem) : Prop extends Keeps place fs fs' where
  fileAt_eq : ∀ {other : List String}, other ≠ place → fs'.fileAt other = fs.fileAt other

theorem Confined.trans (h : Confined place fs fs') (h' : Confined place fs' fs'') :
    Confined place fs fs'' where
  toKeeps := h.toKeeps.trans h'.toKeeps
  fileAt_eq hne := (h'.fileAt_eq hne).trans (h.fileAt_eq hne)

theorem confined_ensureDirectory (text : String) (hwf : fs.WellFormed) :
    Confined place fs (fs.ensureDirectory text).2 := by
  refine ⟨(keeps_ensureDirectory text hwf).1, fun {other} _ => ?_⟩
  exact ensureDirectory_induction (P := fun made => made.fileAt other = fs.fileAt other)
    (fun hmade hcreate => (fileAt_createDirectory hcreate other).trans hmade) text rfl

theorem confined_put (hwf : fs.WellFormed) (h : fs.put text bytes = .ok fs') :
    Confined (fs.place text) fs fs' := by
  refine ⟨(keeps_put hwf h).1, fun {other} hne => ?_⟩
  rw [put, bind_eq_ok_iff] at h
  obtain ⟨⟨number, created⟩, hcreate, h⟩ := h
  cases h
  have hcreates := createFile_spec hcreate
  have hkeeps := hcreates.keeps hwf
  have hentry := hcreates.leads.entry
  rw [hkeeps.place_eq] at hentry
  rw [fileAt_setContent hkeeps.wellFormed hentry _ hne, hcreates.fileAt_eq hwf hne]

end FileSystem

end TraceJournal
