import TraceJournal.Proofs.Lookup
import TraceJournal.Proofs.Storage.Places

/-!
# Files of a file system

What is written under a path is read under it. Creating a file adds an entry at most, so that every
path that led to a file still does.
-/
namespace TraceJournal

namespace FileSystem

variable {fs fs' : FileSystem} {here : List String} {name text : String} {number n : Nat}
  {c : Contents} {bytes : List UInt8}

section

variable (fs number c)

@[simp] theorem home_setContent : (fs.setContent number c).home = fs.home := by
  unfold setContent
  split <;> rfl

@[simp] theorem entries_setContent : (fs.setContent number c).entries = fs.entries := by
  unfold setContent
  split <;> rfl

@[simp] theorem opened_setContent : (fs.setContent number c).opened = fs.opened := by
  unfold setContent
  split <;> rfl

@[simp] theorem entry?_setContent (place : List String) :
    entry? (fs.setContent number c) place = fs.entry? place := by
  unfold entry?
  rw [home_setContent, entries_setContent]

theorem extends_setContent : Extends fs (fs.setContent number c) :=
  ⟨home_setContent fs number c, fun he => by rwa [entry?_setContent]⟩

theorem contents_setContent : (fs.setContent number c).contents =
    if fs.contents.any (·.1 == number) then
      fs.contents.map fun (n, old) => (n, if n == number then c else old)
    else fs.contents ++ [(number, c)] := by
  unfold setContent
  split <;> rfl

theorem content_setContent (n : Nat) :
    (fs.setContent number c).content n = if n = number then c else fs.content n := by
  rw [content, contents_setContent, lookup_set]
  by_cases hn : n = number <;> simp [hn, content]

end

/-- A path that leads to a file leads to its place, where the file is. -/
theorem of_resolve_file (h : fs.resolve (Path.ofString text) = .ok (here, .file number)) :
    here = fs.place text ∧ fs.entry? (fs.place text) = some (.file number) := by
  rw [resolve, bind_eq_ok_iff] at h
  obtain ⟨⟨inner, _ | name⟩, hlocate, hentry⟩ := h
  · simp [pure, Except.pure] at hentry
  · rw [← locate_place hlocate]
    dsimp only at hentry
    split at hentry
    · cases hentry
    · simp [pure, Except.pure] at hentry
    · next n he =>
      split at hentry
      · cases hentry
      · cases hentry
        exact ⟨rfl, he⟩

/-- Whether a path names a file, which has this number. -/
structure Leads (text : String) (number : Nat) (fs : FileSystem) : Prop where
  named : checkName text = .ok ()
  resolved : fs.resolve (Path.ofString text) = .ok (fs.place text, .file number)

namespace Leads

theorem of_extends (h : Leads text number fs) (he : Extends fs fs') : Leads text number fs' := by
  refine ⟨h.named, ?_⟩
  rw [he.place_eq]
  exact he.resolve h.resolved

theorem setOpened (h : Leads text number fs) (opened : List OpenFile) :
    Leads text number { fs with opened } :=
  h.of_extends ⟨rfl, id⟩

theorem fetch (h : Leads text number fs) : fs.fetch text = .ok (fs.content number).toList := by
  simp [FileSystem.fetch, h.named, h.resolved, bind, Except.bind, pure, Except.pure]

theorem entry (h : Leads text number fs) : fs.entry? (fs.place text) = some (.file number) :=
  (of_resolve_file h.resolved).2

end Leads

theorem leads_of_fetch (h : fs.fetch text = .ok bytes) :
    ∃ number, Leads text number fs ∧ (fs.content number).toList = bytes := by
  rw [FileSystem.fetch, bind_eq_ok_iff] at h
  obtain ⟨_, hnamed, h⟩ := h
  rw [bind_eq_ok_iff] at h
  obtain ⟨⟨found, _ | number⟩, hresolve, h⟩ := h
  · cases h
  · refine ⟨number, ⟨hnamed, ?_⟩, Except.ok.inj h⟩
    rwa [(of_resolve_file hresolve).1] at hresolve

def addEntry (place : List String) (e : Entry) (fs : FileSystem) : FileSystem :=
  { fs with entries := fs.entries ++ [(place, e)] }

theorem entry?_addEntry {place : List String} (h : fs.entry? place = none) (e : Entry)
    (other : List String) :
    entry? (fs.addEntry place e) other = if other = place then some e else fs.entry? other := by
  have hhome : ¬place.isPrefixOf fs.home = true := by
    intro hp
    simp [hp, entry?] at h
  unfold entry? at h
  rw [if_neg hhome] at h
  change (if other.isPrefixOf fs.home = true then some .directory else
    (fs.entries ++ [(place, e)]).lookup other) = _
  by_cases ho : other = place
  · subst ho
    rw [if_neg hhome, List.lookup_append, h]
    simp
  · have ho' : (other == place) = false := beq_eq_false_iff_ne.2 ho
    rw [if_neg ho, entry?, List.lookup_append, List.lookup_cons, ho']
    simp

theorem extends_addEntry {place : List String} (h : fs.entry? place = none) (e : Entry) :
    Extends fs (fs.addEntry place e) := by
  refine ⟨rfl, fun {other} _ he => ?_⟩
  rw [entry?_addEntry h, if_neg ?_, he]
  rintro rfl
  rw [h] at he
  cases he

/-- What creating or emptying the file at a path does: it is emptied under the number that it has, or
it gets a new number and an entry. -/
inductive Creates (text : String) (fs : FileSystem) : Nat → FileSystem → Prop
  | emptied {number : Nat} (h : Leads text number fs) :
      Creates text fs number (fs.setContent number Contents.empty)
  | added {here : List String} {name : String} (hnamed : checkName text = .ok ())
      (hfile : (Path.ofString text).directory = false)
      (hlocate : fs.locate (Path.ofString text) = .ok (here, some name))
      (hentry : fs.entry? (fs.place text) = none) :
      Creates text fs fs.contents.length
        ((fs.setContent fs.contents.length Contents.empty).addEntry (fs.place text)
          (.file fs.contents.length))

theorem createFile_spec (h : fs.createFile text = .ok (number, fs')) :
    Creates text fs number fs' := by
  rw [createFile, bind_eq_ok_iff] at h
  obtain ⟨_, hnamed, h⟩ := h
  dsimp only at h
  rw [bind_eq_ok_iff] at h
  obtain ⟨⟨here, _ | name⟩, hlocate, h⟩ := h
  · cases h
  · have hplace := locate_place hlocate
    dsimp only at h
    split at h
    · cases h
    · next hfile =>
      have hfile' : (Path.ofString text).directory = false := by simpa using hfile
      rw [hplace] at h
      cases he : fs.entry? (fs.place text) with
      | none =>
        rw [he] at h
        cases h
        exact .added hnamed hfile' hlocate he
      | some entry =>
        rw [he] at h
        cases entry with
        | directory => cases h
        | file n =>
          cases h
          refine .emptied ⟨hnamed, ?_⟩
          simp [resolve, hlocate, hplace, he, hfile', bind, Except.bind, pure, Except.pure]

namespace Creates

theorem toExtends (h : Creates text fs number fs') : Extends fs fs' := by
  cases h with
  | emptied => exact extends_setContent fs number Contents.empty
  | added _ _ _ hentry =>
    exact (extends_setContent _ _ _).trans (extends_addEntry (by simpa using hentry) _)

theorem leads (h : Creates text fs number fs') : Leads text number fs' := by
  have hextends := h.toExtends
  cases h with
  | emptied h => exact h.of_extends hextends
  | @added here name hnamed hfile hlocate hentry =>
    refine ⟨hnamed, ?_⟩
    have hlocate' := hextends.locate hlocate
    have hfree : entry? (fs.setContent fs.contents.length Contents.empty) (fs.place text) = none := by
      simpa using hentry
    have hentry' := entry?_addEntry hfree (.file fs.contents.length) (fs.place text)
    rw [hextends.place_eq, resolve, hlocate']
    simp [locate_place hlocate, hentry', hfile, bind, Except.bind, pure, Except.pure]

theorem content_eq (h : Creates text fs number fs') : fs'.content number = Contents.empty := by
  cases h with
  | emptied => rw [content_setContent, if_pos rfl]
  | added =>
    change (fs.setContent _ _).content _ = _
    rw [content_setContent, if_pos rfl]

end Creates

/-- Whether a file can be written under a path: it names one in a directory that is there. -/
structure Writable (fs : FileSystem) (text : String) : Prop where
  named : checkName text = .ok ()
  file : (Path.ofString text).directory = false
  located : ∃ here name, fs.locate (Path.ofString text) = .ok (here, some name)
  entry_ne : fs.entry? (fs.place text) ≠ some .directory

theorem Writable.createFile (h : fs.Writable text) :
    ∃ number fs', fs.createFile text = .ok (number, fs') := by
  obtain ⟨here, name, hlocate⟩ := h.located
  have hplace := locate_place hlocate
  have hentry := h.entry_ne
  rw [← hplace] at hentry
  rw [FileSystem.createFile, h.named]
  simp only [hlocate, h.file, bind, Except.bind]
  cases he : fs.entry? (here ++ [name]) with
  | none => exact ⟨_, _, rfl⟩
  | some entry =>
    cases entry with
    | directory => exact absurd he hentry
    | file n => exact ⟨_, _, rfl⟩

/-- What is written under a path is read under it. -/
theorem fetch_of_put (h : fs.put text bytes = .ok fs') : fs'.fetch text = .ok bytes := by
  rw [put, bind_eq_ok_iff] at h
  obtain ⟨⟨number, created⟩, hcreate, h⟩ := h
  cases h
  have hleads := (createFile_spec hcreate).leads.of_extends
    (extends_setContent created number (Contents.ofList bytes))
  rw [hleads.fetch, content_setContent, if_pos rfl, Contents.toList_ofList]

theorem Writable.put (h : fs.Writable text) (bytes : List UInt8) :
    ∃ fs', fs.put text bytes = .ok fs' := by
  obtain ⟨number, created, hcreate⟩ := h.createFile
  exact ⟨_, by rw [FileSystem.put, hcreate]; rfl⟩

end FileSystem

end TraceJournal
