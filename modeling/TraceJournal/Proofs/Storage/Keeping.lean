import TraceJournal.Proofs.Storage.Files

/-!
# What a file system keeps

In a well-formed file system no file has two places, so what is done to the file at one place is seen
at that place only. Creating directories and copying change at most the file that is copied to, and a
file that is held open at its end grows by what is written to it.
-/
namespace TraceJournal

namespace FileSystem

variable {fs fs' fs'' : FileSystem} {place other : List String} {text path source target : String}
  {number file : Nat} {c : Contents} {bytes more : List UInt8} {p : Path}

/-- Whether every file has one place, and every content a number that has been given. -/
structure WellFormed (fs : FileSystem) : Prop where
  numbered : ∀ {place : List String} {n : Nat}, fs.entry? place = some (.file n) →
    n < fs.contents.length
  distinct : ∀ {place other : List String} {n : Nat}, fs.entry? place = some (.file n) →
    fs.entry? other = some (.file n) → place = other
  known : ∀ {n : Nat}, fs.contents.any (·.1 == n) = true → n < fs.contents.length

theorem wellFormed_empty : empty.WellFormed := by
  have hnone (place : List String) (n : Nat) : empty.entry? place ≠ some (.file n) := by
    intro h
    unfold entry? at h
    split at h <;> simp [empty] at h
  constructor
  · intro place n h
    exact (hnone place n h).elim
  · intro place other n h
    exact (hnone place n h).elim
  · intro n h
    cases h

theorem length_contents_new (h : fs.WellFormed) (c : Contents) :
    (fs.setContent fs.contents.length c).contents.length = fs.contents.length + 1 := by
  have hnew : fs.contents.any (·.1 == fs.contents.length) = false := by
    cases hany : fs.contents.any (·.1 == fs.contents.length) with
    | false => rfl
    | true => exact absurd (h.known hany) (Nat.lt_irrefl _)
  rw [contents_setContent, hnew, if_neg Bool.false_ne_true, List.length_append, List.length_singleton]

namespace WellFormed

theorem setContent (h : fs.WellFormed) (hn : number ≤ fs.contents.length) (c : Contents) :
    (fs.setContent number c).WellFormed := by
  have hlength : fs.contents.length ≤ (fs.setContent number c).contents.length := by
    rw [contents_setContent]
    split <;> simp
  constructor
  · intro place n hentry
    rw [entry?_setContent] at hentry
    exact Nat.lt_of_lt_of_le (h.numbered hentry) hlength
  · intro place other n hplace hother
    rw [entry?_setContent] at hplace hother
    exact h.distinct hplace hother
  · intro n hany
    rw [contents_setContent] at hany ⊢
    split at hany
    · next hset =>
      rw [if_pos hset, List.length_map]
      exact h.known (by simpa [List.any_map, Function.comp_def] using hany)
    · next hset =>
      rw [if_neg hset, List.length_append, List.length_singleton]
      rw [List.any_append, Bool.or_eq_true] at hany
      rcases hany with hany | hany
      · exact Nat.lt_succ_of_lt (h.known hany)
      · have hsame : number = n := by simpa using hany
        omega

theorem setOpened (h : fs.WellFormed) (opened : List OpenFile) : WellFormed { fs with opened } :=
  ⟨h.numbered, h.distinct, h.known⟩

theorem addEntry {e : Entry} (h : fs.WellFormed) (hfree : fs.entry? place = none)
    (he : ∀ n, e = .file n → n < fs.contents.length ∧ ∀ other, fs.entry? other ≠ some (.file n)) :
    (fs.addEntry place e).WellFormed := by
  constructor
  · intro other n hentry
    rw [entry?_addEntry hfree] at hentry
    split at hentry
    · exact (he n (Option.some.inj hentry)).1
    · exact h.numbered hentry
  · intro first second n hfirst hsecond
    rw [entry?_addEntry hfree] at hfirst hsecond
    split at hfirst
    · next hplace =>
      have hn := (he n (Option.some.inj hfirst)).2
      split at hsecond
      · next hplace' => rw [hplace, hplace']
      · exact absurd hsecond (hn second)
    · split at hsecond
      · exact absurd hfirst ((he n (Option.some.inj hsecond)).2 first)
      · exact h.distinct hfirst hsecond
  · exact fun hany => h.known hany

end WellFormed

/-- Whether a well-formed file system is left in which everything is as it was, but for the content of
the file at `place` and what has been added. -/
structure Keeps (place : List String) (fs fs' : FileSystem) : Prop extends Extends fs fs' where
  wellFormed : fs'.WellFormed
  content_eq : ∀ {other : List String} {n : Nat}, fs.entry? other = some (.file n) →
    other ≠ place → fs'.content n = fs.content n

namespace Keeps

theorem refl (h : fs.WellFormed) : Keeps place fs fs := ⟨.refl fs, h, fun _ _ => rfl⟩

theorem trans (h : Keeps place fs fs') (h' : Keeps place fs' fs'') : Keeps place fs fs'' where
  toExtends := h.toExtends.trans h'.toExtends
  wellFormed := h'.wellFormed
  content_eq hentry hne := (h'.content_eq (h.entry_eq hentry) hne).trans (h.content_eq hentry hne)

/-- What could be read is read again, unless it is at the place that changes. -/
theorem fetch (h : Keeps place fs fs') (hfetch : fs.fetch text = .ok bytes)
    (hne : fs.place text ≠ place) : fs'.fetch text = .ok bytes := by
  obtain ⟨number, hleads, hbytes⟩ := leads_of_fetch hfetch
  rw [(hleads.of_extends h.toExtends).fetch, h.content_eq hleads.entry hne, hbytes]

end Keeps

/-- Whether all that can be read elsewhere than at a path can still be read. -/
structure KeepsElsewhere (path : String) (fs fs' : FileSystem) : Prop where
  home_eq : fs'.home = fs.home
  fetch : ∀ {text : String} {bytes : List UInt8}, fs.fetch text = .ok bytes →
    fs.place text ≠ fs.place path → fs'.fetch text = .ok bytes

namespace KeepsElsewhere

theorem refl (path : String) (fs : FileSystem) : KeepsElsewhere path fs fs := ⟨rfl, fun h _ => h⟩

theorem trans (h : KeepsElsewhere path fs fs') (h' : KeepsElsewhere path fs' fs'') :
    KeepsElsewhere path fs fs'' where
  home_eq := h'.home_eq.trans h.home_eq
  fetch {text bytes} hfetch hne := by
    refine h'.fetch (h.fetch hfetch hne) ?_
    rwa [place_congr h.home_eq, place_congr h.home_eq]

end KeepsElsewhere

theorem keeps_setContent (h : fs.WellFormed) (hentry : fs.entry? place = some (.file number))
    (c : Contents) : Keeps place fs (fs.setContent number c) where
  toExtends := extends_setContent fs number c
  wellFormed := h.setContent (Nat.le_of_lt (h.numbered hentry)) c
  content_eq {other n} hother hne := by
    rw [content_setContent, if_neg]
    rintro rfl
    exact hne (h.distinct hother hentry)

theorem keeps_addDirectory (h : fs.WellFormed) (hfree : fs.entry? other = none) :
    Keeps place fs (fs.addEntry other .directory) where
  toExtends := extends_addEntry hfree _
  wellFormed := h.addEntry hfree (by simp)
  content_eq _ _ := rfl

namespace Creates

theorem keeps (h : Creates text fs number fs') (hwf : fs.WellFormed) :
    Keeps (fs.place text) fs fs' := by
  have hextends := h.toExtends
  cases h with
  | emptied h => exact keeps_setContent hwf h.entry Contents.empty
  | added hnamed hfile hlocate hentry =>
    have hset := hwf.setContent (Nat.le_refl _) Contents.empty
    refine ⟨hextends, hset.addEntry (by simpa using hentry) ?_, ?_⟩
    · rintro n ⟨⟩
      rw [length_contents_new hwf]
      refine ⟨Nat.lt_succ_self _, fun other hother => ?_⟩
      rw [entry?_setContent] at hother
      exact Nat.lt_irrefl _ (hwf.numbered hother)
    · intro other n hother _
      have hn := hwf.numbered hother
      change (fs.setContent _ _).content n = _
      rw [content_setContent, if_neg (by omega)]

theorem opened_eq (h : Creates text fs number fs') : fs'.opened = fs.opened := by
  cases h with
  | emptied => exact opened_setContent fs _ _
  | added => exact opened_setContent fs _ _

end Creates

theorem keeps_createDirectory (hwf : fs.WellFormed) (h : fs.createDirectory p = .ok fs') :
    Keeps place fs fs' ∧ fs'.opened = fs.opened := by
  rw [createDirectory, bind_eq_ok_iff] at h
  obtain ⟨⟨here, _ | name⟩, -, h⟩ := h
  · cases h
  · dsimp only at h
    cases hentry : fs.entry? (here ++ [name]) with
    | some e => simp [hentry] at h
    | none =>
      rw [hentry] at h
      cases h
      exact ⟨keeps_addDirectory hwf hentry, rfl⟩

/-- What each new directory keeps is kept by creating one with all that it lies in, whether that
succeeds or not. -/
theorem createDirectories_induction {P : FileSystem → Prop}
    (step : ∀ {fs fs' p}, P fs → fs.createDirectory p = .ok fs' → P fs') (depth : Nat) (p : Path)
    (h : P fs) : P (fs.createDirectories depth p).2 := by
  fun_induction createDirectories depth p fs with
  | case1 | case6 | case7 => exact h
  | case2 depth p hp made hcreate => exact step h hcreate
  | case3 p hp depth parent hparent e above habove hfirst ih
  | case5 p hp depth parent hparent above habove e hcreate hfirst ih =>
    rw [habove] at ih
    exact ih
  | case4 p hp depth parent hparent above habove made hcreate hfirst ih =>
    rw [habove] at ih
    exact step ih hcreate

theorem keeps_createDirectories (depth : Nat) (p : Path) (hwf : fs.WellFormed) :
    Keeps place fs (fs.createDirectories depth p).2 ∧
      (fs.createDirectories depth p).2.opened = fs.opened := by
  refine createDirectories_induction
    (P := fun made => Keeps place fs made ∧ made.opened = fs.opened) ?_ depth p ⟨.refl hwf, rfl⟩
  rintro made made' p ⟨hkeeps, hopened⟩ hcreate
  obtain ⟨hkeeps', hopened'⟩ := keeps_createDirectory hkeeps.wellFormed hcreate
  exact ⟨hkeeps.trans hkeeps', hopened'.trans hopened⟩

theorem ensureDirectory_induction {P : FileSystem → Prop}
    (step : ∀ {fs fs' p}, P fs → fs.createDirectory p = .ok fs' → P fs') (text : String)
    (h : P fs) : P (fs.ensureDirectory text).2 := by
  unfold ensureDirectory
  split
  · exact h
  · split
    · exact h
    · exact createDirectories_induction step _ _ h

/-- Creating directories changes no file, whether it succeeds or not. -/
theorem keeps_ensureDirectory (text : String) (hwf : fs.WellFormed) :
    Keeps place fs (fs.ensureDirectory text).2 ∧ (fs.ensureDirectory text).2.opened = fs.opened := by
  unfold ensureDirectory
  split
  · exact ⟨.refl hwf, rfl⟩
  · split
    · exact ⟨.refl hwf, rfl⟩
    · exact keeps_createDirectories _ _ hwf

theorem keeps_put (hwf : fs.WellFormed) (h : fs.put text bytes = .ok fs') :
    Keeps (fs.place text) fs fs' ∧ fs'.opened = fs.opened := by
  rw [put, bind_eq_ok_iff] at h
  obtain ⟨⟨number, created⟩, hcreate, h⟩ := h
  cases h
  have hcreates := createFile_spec hcreate
  have hkeeps := hcreates.keeps hwf
  have hentry := hcreates.leads.entry
  rw [hkeeps.place_eq] at hentry
  exact ⟨hkeeps.trans (keeps_setContent hkeeps.wellFormed hentry _),
    (opened_setContent _ _ _).trans hcreates.opened_eq⟩

/-- What a copy of these bytes to a path does, whether it succeeds or not. -/
structure Copies (target : String) (bytes : List UInt8) (fs : FileSystem)
    (result : Except IoError Unit) (fs' : FileSystem) : Prop where
  keeps : Keeps (fs.place target) fs fs'
  opened_eq : fs'.opened = fs.opened
  fetch_eq : result = .ok () → fs'.fetch target = .ok bytes

/-- A file is copied to another place than its own. -/
theorem copyFile_spec (hwf : fs.WellFormed) (hs : Leads source number fs)
    (hne : fs.place source ≠ fs.place target) :
    Copies target (fs.content number).toList fs (fs.copyFile source target).1
      (fs.copyFile source target).2 := by
  have hsource : (checkName source *> fs.resolve (Path.ofString source)) =
      .ok (fs.place source, .file number) := by
    rw [hs.named, hs.resolved]
    rfl
  cases hcreate : fs.createFile target with
  | error e =>
    have hcopy : fs.copyFile source target = (.error e, fs) := by
      simp [copyFile, hsource, hcreate]
    rw [hcopy]
    exact ⟨.refl hwf, rfl, fun h => nomatch h⟩
  | ok made =>
    rcases made with ⟨copy, created⟩
    have hcreates := createFile_spec hcreate
    have hkeeps := hcreates.keeps hwf
    have hleads := hcreates.leads
    have hentry := hleads.entry
    rw [hkeeps.place_eq] at hentry
    -- The target is emptied first, but it is not the source.
    have hcopy : fs.copyFile source target = (.ok (), created.setContent copy (fs.content number)) := by
      simp [copyFile, hsource, hcreate, hkeeps.content_eq hs.entry hne]
    have hset := keeps_setContent hkeeps.wellFormed hentry (fs.content number)
    rw [hcopy]
    refine ⟨hkeeps.trans hset, (opened_setContent _ _ _).trans hcreates.opened_eq, fun _ => ?_⟩
    rw [(hleads.of_extends hset.toExtends).fetch, content_setContent, if_pos rfl]

theorem eq_of_create_error {e : IoError} (h : fs.create path = (.error e, fs')) : fs' = fs := by
  rw [create] at h
  cases hcreate : fs.createFile path with
  | error e =>
    rw [hcreate] at h
    exact (Prod.mk.inj h).2.symm
  | ok made => simp [hcreate] at h

/-- Whether a file system is well-formed and holds a file open at its end, and what that file holds. -/
structure HoldsOpen (path : String) (file : Nat) (bytes : List UInt8) (fs : FileSystem) : Prop where
  wellFormed : fs.WellFormed
  held : ∃ number, Leads path number fs ∧ fs.opened[file]? = some ⟨number, bytes.length⟩ ∧
    (fs.content number).toList = bytes

namespace HoldsOpen

theorem fetch (h : HoldsOpen path file bytes fs) : fs.fetch path = .ok bytes := by
  obtain ⟨number, hleads, -, hbytes⟩ := h.held
  rw [hleads.fetch, hbytes]

/-- What changes only a file at another place leaves it as it is. -/
theorem of_keeps (h : HoldsOpen path file bytes fs) (hkeeps : Keeps place fs fs')
    (hopened : fs'.opened = fs.opened) (hne : fs.place path ≠ place) :
    HoldsOpen path file bytes fs' := by
  obtain ⟨number, hleads, hfile, hbytes⟩ := h.held
  refine ⟨hkeeps.wellFormed, number, hleads.of_extends hkeeps.toExtends, ?_, ?_⟩
  · rw [hopened, hfile]
  · rw [hkeeps.content_eq hleads.entry hne, hbytes]

theorem of_create (hwf : fs.WellFormed) (h : fs.create path = (.ok file, fs')) :
    HoldsOpen path file [] fs' ∧ KeepsElsewhere path fs fs' := by
  rw [FileSystem.create] at h
  cases hcreate : fs.createFile path with
  | error e => simp [hcreate] at h
  | ok made =>
    rcases made with ⟨number, created⟩
    rw [hcreate] at h
    cases h
    have hcreates := createFile_spec hcreate
    have hkeeps := hcreates.keeps hwf
    refine ⟨⟨hkeeps.wellFormed.setOpened _, number, hcreates.leads.setOpened _, ?_, ?_⟩,
      ⟨hkeeps.home_eq, hkeeps.fetch⟩⟩
    · simp
    · exact congrArg Contents.toList hcreates.content_eq

theorem writeAll (h : HoldsOpen path file bytes fs) (more : List UInt8) :
    ∃ fs', fs.writeAll file more = (.ok (), fs') ∧ HoldsOpen path file (bytes ++ more) fs' ∧
      KeepsElsewhere path fs fs' := by
  obtain ⟨number, hleads, hfile, hbytes⟩ := h.held
  have hsize : bytes.length = (fs.content number).size := by
    rw [← hbytes, Contents.length_toList]
  let written := if more.isEmpty then fs
    else fs.setContent number ((fs.content number).write bytes.length more)
  have hkeeps : Keeps (fs.place path) fs written := by
    dsimp only [written]
    split
    · exact .refl h.wellFormed
    · exact keeps_setContent h.wellFormed hleads.entry _
  have hcontent : (written.content number).toList = bytes ++ more := by
    dsimp only [written]
    split
    · next hempty => rw [List.isEmpty_iff.1 hempty, List.append_nil, hbytes]
    · rw [content_setContent, if_pos rfl, Contents.write, if_pos hsize, Contents.toList_append, hbytes]
  have hopened : written.opened = fs.opened := by
    dsimp only [written]
    split
    · rfl
    · exact opened_setContent fs _ _
  have hwrite : fs.writeAll file more = (.ok (), { written with
      opened := fs.opened.set file ⟨number, bytes.length + more.length⟩ }) := by
    rw [← hopened, FileSystem.writeAll, hfile]
  refine ⟨_, hwrite, ⟨hkeeps.wellFormed.setOpened _, number,
    (hleads.of_extends hkeeps.toExtends).setOpened _, ?_, hcontent⟩, hkeeps.home_eq, hkeeps.fetch⟩
  have hlt := (List.getElem?_eq_some_iff.1 hfile).1
  simp [hlt]

end HoldsOpen

end FileSystem

end TraceJournal
