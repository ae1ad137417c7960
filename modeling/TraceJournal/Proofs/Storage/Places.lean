import TraceJournal.Proofs.Except
import TraceJournal.Storage.FileSystem
import Mathlib.Tactic.SplitIfs

/-!
# Places of paths

Where a path leads follows from its text and the working directory, if it leads anywhere at all. A
file system that has more entries leads every path that led somewhere to the same place.
-/
namespace TraceJournal

namespace Path

/-- The place that one part of a path leads to. -/
def walk (place : List String) (part : String) : List String :=
  if part = "." then place else if part = ".." then place.dropLast else place ++ [part]

theorem splitSlashes_ne_nil (cs : List Char) : splitSlashes cs ≠ [] := by
  cases cs with
  | nil => simp [splitSlashes]
  | cons c cs =>
    rw [splitSlashes, List.foldr_cons]
    split <;> simp

theorem splitSlashes_append_cons (before after : List Char) :
    splitSlashes (before ++ '/' :: after) = splitSlashes before ++ splitSlashes after := by
  induction before with
  | nil => rfl
  | cons c before ih =>
    obtain ⟨piece, pieces, hpieces⟩ := List.exists_cons_of_ne_nil (splitSlashes_ne_nil before)
    rw [List.cons_append]
    unfold splitSlashes at ih hpieces ⊢
    rw [List.foldr_cons, List.foldr_cons, ih, hpieces]
    by_cases hc : c = '/'
    · simp [hc]
    · simp

theorem splitSlashes_of_not_mem {cs : List Char} (h : '/' ∉ cs) : splitSlashes cs = [cs] := by
  induction cs with
  | nil => rfl
  | cons c cs ih =>
    rw [List.mem_cons, not_or] at h
    have hcs := ih h.2
    unfold splitSlashes at hcs ⊢
    rw [List.foldr_cons, hcs]
    split
    · next heq => exact absurd rfl h.1
    · next heq => cases heq; rfl
    · next heq => cases heq

theorem ofString_join {name : String} (hne : name ≠ "") (hslash : '/' ∉ name.toList)
    (directory : String) :
    (ofString (join directory name)).parts = (ofString directory).parts ++ [name] ∧
      (ofString (join directory name)).absolute = (ofString directory).absolute := by
  have hlast : splitSlashes name.toList = [name.toList] := splitSlashes_of_not_mem hslash
  have hfull : name.toList.isEmpty = false := by simpa using hne
  have hparts (text : String) : (ofString text).parts =
    ((splitSlashes text.toList).filter (!·.isEmpty)).map String.ofList := rfl
  have habs (text : String) : (ofString text).absolute = (text.toList.head? == some '/') := rfl
  rw [hparts, hparts, habs, habs, join]
  by_cases hempty : directory = ""
  · have hhead : name.toList.head? ≠ some '/' := fun h => hslash (List.mem_of_head? h)
    subst hempty
    have hjoin : (if ("".isEmpty || "".toList.getLast? == some '/') = true then "" ++ name
        else "" ++ "/" ++ name) = name := by simp
    have hnil : splitSlashes "".toList = [[]] := rfl
    rw [hjoin, hlast, hnil]
    exact ⟨by simp [hfull], by simpa using hhead⟩
  by_cases hend : directory.toList.getLast? = some '/'
  · obtain ⟨front, hfront⟩ := List.getLast?_eq_some_iff.1 hend
    have hjoin : (directory ++ name).toList = front ++ '/' :: name.toList := by
      rw [String.toList_append, hfront, List.append_assoc, List.singleton_append]
    have hdir : splitSlashes directory.toList = splitSlashes front ++ [[]] := by
      rw [hfront, splitSlashes_append_cons]
      rfl
    have hcut : (directory.isEmpty || directory.toList.getLast? == some '/') = true := by simp [hend]
    rw [if_pos hcut, hjoin, splitSlashes_append_cons, hlast, hdir, hfront]
    refine ⟨by simp [hfull], ?_⟩
    cases front <;> rfl
  · have hjoin : (directory ++ "/" ++ name).toList = directory.toList ++ '/' :: name.toList := by
      simp
    have hcut : (directory.isEmpty || directory.toList.getLast? == some '/') = false := by
      simp [hend, hempty]
    have hcons : directory.toList ≠ [] := by simpa using hempty
    rw [hcut, if_neg Bool.false_ne_true, hjoin, splitSlashes_append_cons, hlast]
    refine ⟨by simp [hfull], ?_⟩
    obtain ⟨c, rest, hc⟩ := List.exists_cons_of_ne_nil hcons
    rw [hc]
    rfl

end Path

namespace FileSystem

variable {fs fs' : FileSystem} {here next : List String} {part name text : String} {p : Path}

def origin (fs : FileSystem) (p : Path) : List String := if p.absolute then [] else fs.home

/-- The place that a path leads to by its text alone. -/
def place (fs : FileSystem) (text : String) : List String :=
  (Path.ofString text).parts.foldl Path.walk (fs.origin (Path.ofString text))

/-- A name below a directory leads below the place of the directory. -/
theorem place_join {name : String} (hne : name ≠ "") (hslash : '/' ∉ name.toList) (hdot : name ≠ ".")
    (hdots : name ≠ "..") (fs : FileSystem) (directory : String) :
    fs.place (Path.join directory name) = fs.place directory ++ [name] := by
  obtain ⟨hparts, habsolute⟩ := Path.ofString_join hne hslash directory
  have horigin : fs.origin (Path.ofString (Path.join directory name)) =
      fs.origin (Path.ofString directory) := by
    rw [origin, origin, habsolute]
  rw [place, place, hparts, horigin, List.foldl_append, List.foldl_cons, List.foldl_nil, Path.walk,
    if_neg hdot, if_neg hdots]

theorem place_congr (h : fs'.home = fs.home) (text : String) : fs'.place text = fs.place text := by
  rw [place, place, origin, origin, h]

theorem enter_eq_walk (h : fs.enter here part = .ok next) : next = Path.walk here part := by
  unfold enter at h
  unfold Path.walk
  split_ifs at h ⊢
  · exact (Except.ok.inj h).symm
  · exact (Except.ok.inj h).symm
  · cases hentry : fs.entry? (here ++ [part]) with
    | none => simp [hentry] at h
    | some entry =>
      cases entry with
      | directory => simpa [hentry, eq_comm] using h
      | file number => simp [hentry] at h

theorem foldlM_enter_eq {parts : List String} (h : parts.foldlM fs.enter here = .ok next) :
    next = parts.foldl Path.walk here := by
  induction parts generalizing here with
  | nil => exact (Except.ok.inj h).symm
  | cons part parts ih =>
    rw [List.foldlM_cons, bind_eq_ok_iff] at h
    obtain ⟨inner, henter, hparts⟩ := h
    rw [List.foldl_cons, ← enter_eq_walk henter]
    exact ih hparts

/-- A path that ends in a name is looked up under that name in the directory that its other parts
lead to. -/
theorem of_locate_name (h : fs.locate p = .ok (here, some name)) :
    ∃ front, p.parts = front ++ [name] ∧ ¬(name = "." ∨ name = "..") ∧
      name.utf8ByteSize ≤ maxName ∧ front.foldlM fs.enter (fs.origin p) = .ok here := by
  rw [locate] at h
  cases hlast : p.parts.getLast? with
  | none => simp [hlast, pure, Except.pure] at h
  | some last =>
    obtain ⟨front, hparts⟩ := List.getLast?_eq_some_iff.1 hlast
    simp only [hparts, List.getLast?_concat, List.dropLast_concat] at h
    obtain ⟨inner, hfront, hend⟩ := bind_eq_ok_iff.1 h
    split_ifs at hend with hdots hlong
    · obtain ⟨_, -, hnone⟩ := bind_eq_ok_iff.1 hend
      simp [pure, Except.pure] at hnone
    · obtain ⟨rfl, rfl⟩ : inner = here ∧ last = name := by
        simpa [pure, Except.pure] using hend
      exact ⟨front, hparts, hdots, by omega, hfront⟩

theorem locate_place (h : fs.locate (Path.ofString text) = .ok (here, some name)) :
    here ++ [name] = fs.place text := by
  obtain ⟨front, hparts, hname, -, hfront⟩ := of_locate_name h
  rw [place, hparts, List.foldl_append, ← foldlM_enter_eq hfront, List.foldl_cons, List.foldl_nil,
    Path.walk, if_neg (not_or.1 hname).1, if_neg (not_or.1 hname).2]

/-- Whether `fs'` has all entries of `fs`, at the same working directory. -/
structure Extends (fs fs' : FileSystem) : Prop where
  home_eq : fs'.home = fs.home
  entry_eq : ∀ {place : List String} {e : Entry}, fs.entry? place = some e →
    fs'.entry? place = some e

namespace Extends

theorem refl (fs : FileSystem) : Extends fs fs := ⟨rfl, id⟩

theorem trans {fs'' : FileSystem} (h : Extends fs fs') (h' : Extends fs' fs'') : Extends fs fs'' :=
  ⟨h'.home_eq.trans h.home_eq, fun he => h'.entry_eq (h.entry_eq he)⟩

theorem place_eq (h : Extends fs fs') (text : String) : fs'.place text = fs.place text :=
  place_congr h.home_eq text

theorem enter (h : Extends fs fs') (henter : fs.enter here part = .ok next) :
    fs'.enter here part = .ok next := by
  unfold FileSystem.enter at henter ⊢
  split_ifs at henter ⊢
  · exact henter
  · exact henter
  · cases hentry : fs.entry? (here ++ [part]) with
    | none => simp [hentry] at henter
    | some entry =>
      rw [hentry] at henter
      rwa [h.entry_eq hentry]

theorem foldlM_enter (h : Extends fs fs') {parts : List String}
    (hparts : parts.foldlM fs.enter here = .ok next) :
    parts.foldlM fs'.enter here = .ok next := by
  induction parts generalizing here with
  | nil => exact hparts
  | cons part parts ih =>
    rw [List.foldlM_cons, bind_eq_ok_iff] at hparts ⊢
    obtain ⟨inner, henter, hparts⟩ := hparts
    exact ⟨inner, h.enter henter, ih hparts⟩

theorem locate (h : Extends fs fs') {found : List String × Option String}
    (hlocate : fs.locate p = .ok found) : fs'.locate p = .ok found := by
  rw [FileSystem.locate] at hlocate ⊢
  cases hlast : p.parts.getLast? with
  | none =>
    rw [hlast, ← h.home_eq] at hlocate
    exact hlocate
  | some last =>
    simp only [hlast, ← h.home_eq] at hlocate ⊢
    obtain ⟨inner, hfront, hend⟩ := bind_eq_ok_iff.1 hlocate
    refine bind_eq_ok_iff.2 ⟨inner, h.foldlM_enter hfront, ?_⟩
    split_ifs at hend ⊢
    · obtain ⟨last, henter, hpure⟩ := bind_eq_ok_iff.1 hend
      exact bind_eq_ok_iff.2 ⟨last, h.enter henter, hpure⟩
    · exact hend

theorem resolve (h : Extends fs fs') {found : List String × Entry}
    (hresolve : fs.resolve p = .ok found) : fs'.resolve p = .ok found := by
  unfold FileSystem.resolve at hresolve ⊢
  rw [bind_eq_ok_iff] at hresolve ⊢
  obtain ⟨located, hlocate, hentry⟩ := hresolve
  refine ⟨located, h.locate hlocate, ?_⟩
  rcases located with ⟨here, _ | name⟩
  · exact hentry
  · dsimp only at hentry ⊢
    cases he : fs.entry? (here ++ [name]) with
    | none => simp [he] at hentry
    | some entry =>
      rw [he] at hentry
      rwa [h.entry_eq he]

end Extends

end FileSystem

end TraceJournal
