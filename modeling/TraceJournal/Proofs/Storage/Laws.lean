import TraceJournal.Proofs.Record.Stream
import TraceJournal.Proofs.Log.Recorded
import TraceJournal.Proofs.Lookup
import TraceJournal.Storage.Memory
import Mathlib.Tactic.SplitIfs

/-!
# Laws of storage

What a log relies on when it speaks about the bytes of its file: a file is empty when it has been
created, a write that succeeds appends all bytes, and one that fails appends some beginning of
them. The medium in memory keeps to this however it is told to misbehave.
-/
namespace TraceJournal

/-- A medium whose open files hold `content` and lose nothing of it. -/
structure Appending {σ η : Type} [Storage σ η] (content : η → σ → List UInt8) : Prop where
  create_ok : ∀ {path : String} {file : η} {m m' : σ},
    Storage.create path m = (.ok file, m') → content file m' = []
  write_ok : ∀ {file : η} {bytes : List UInt8} {m m' : σ},
    Storage.writeAll file bytes m = (.ok (), m') → content file m' = content file m ++ bytes
  write_error : ∀ {file : η} {bytes : List UInt8} {source : IoError} {m m' : σ},
    Storage.writeAll file bytes m = (.error source, m') →
      ∃ torn, StrictPrefix torn bytes ∧ content file m' = content file m ++ torn

/-- A medium that does not fail: while it is `ready` it creates the file at `path`, and while a file
is `usable` it appends to it. -/
structure Reliable {σ η : Type} [Storage σ η] (path : String) (ready : σ → Prop)
    (usable : η → σ → Prop) (content : η → σ → List UInt8) : Prop where
  create : ∀ {m : σ}, ready m → ∃ file m', Storage.create path m = (.ok file, m') ∧
    usable file m' ∧ content file m' = []
  writeAll : ∀ {file : η} {m : σ} (bytes : List UInt8), usable file m →
    ∃ m', Storage.writeAll file bytes m = (.ok (), m') ∧ usable file m' ∧
      content file m' = content file m ++ bytes

/-- An exporter that leaves the content of all files as it is. -/
def Sparing {σ η : Type} (ξ : Type) [Exporter ξ σ] (content : η → σ → List UInt8) : Prop :=
  ∀ (request : ExportRequest) (exporter : ξ) (m : σ) (file : η),
    content file (Exporter.deliver request exporter m).2.2 = content file m

/-- An exporter that does not touch the medium. -/
def Untouching (ξ σ : Type) [Exporter ξ σ] : Prop :=
  ∀ (request : ExportRequest) (exporter : ξ) (m : σ),
    (Exporter.deliver request exporter m).2.2 = m

/-- A medium whose flush leaves the content of all files as it is, whether it succeeds or not. -/
def FlushSparing {σ η : Type} [Storage σ η] (content : η → σ → List UInt8) : Prop :=
  ∀ (flushed file : η) (m : σ), content file (Storage.flush flushed m).2 = content file m

/-- An exporter that takes nothing from a reliable medium. -/
structure Harmless {σ η : Type} (ξ : Type) [Exporter ξ σ] (ready : σ → Prop)
    (usable : η → σ → Prop) (content : η → σ → List UInt8) : Prop where
  ready : ∀ {request : ExportRequest} {exporter : ξ} {m : σ}, ready m →
    ready (Exporter.deliver request exporter m).2.2
  usable : ∀ {request : ExportRequest} {exporter : ξ} {m : σ} {file : η}, usable file m →
    usable file (Exporter.deliver request exporter m).2.2
  sparing : Sparing ξ content

namespace Memory

theorem files_setContent (m : Memory) (name : String) (bytes : List UInt8) :
    (m.setContent name bytes).files = if m.files.any (·.1 == name) then
      m.files.map fun (n, old) => (n, if n == name then bytes else old)
    else m.files ++ [(name, bytes)] := by
  unfold setContent
  split <;> rfl

@[simp] theorem content_setContent (m : Memory) (name : String) (bytes : List UInt8) :
    (m.setContent name bytes).content name = bytes := by
  rw [content, files_setContent, lookup_set, if_pos (beq_self_eq_true name), Option.getD_some]

/-- All bytes are appended, or some beginning of them and the write fails. -/
theorem content_writeAll (name : String) (bytes : List UInt8) (m : Memory) :
    ∃ part, (writeAll name bytes m).2.content name = m.content name ++ part ∧
      match (writeAll name bytes m).1 with
      | .ok () => part = bytes
      | .error _ => StrictPrefix part bytes := by
  fun_induction writeAll name bytes m with
  | case1 m => exact ⟨[], by simp, rfl⟩
  | case2 m b bs m' old ha => exact ⟨[], by simp [m', content], .nil_cons b bs⟩
  | case3 m b bs m' old ha => exact ⟨[], by simp [m', content], .nil_cons b bs⟩
  | case4 m b bs m' old n ha ih =>
    obtain ⟨part, hcontent, hpart⟩ := ih
    have hsplit : (b :: bs).take (n + 1) ++ bs.drop n = b :: bs := List.take_append_drop (n + 1) _
    refine ⟨(b :: bs).take (n + 1) ++ part, ?_, ?_⟩
    · rw [hcontent, content_setContent, List.append_assoc]
      rfl
    · split at hpart
      · rw [hpart]
        exact hsplit
      · have hwhole := hpart.append_left ((b :: bs).take (n + 1))
        rwa [hsplit] at hwhole

theorem appending : Appending fun (name : String) (m : Memory) => m.content name where
  create_ok := by
    intro path file m m' h
    simp only [Storage.create, create] at h
    split at h <;> cases h
    exact content_setContent _ path []
  write_ok := by
    intro file bytes m m' h
    obtain ⟨part, hcontent, hpart⟩ := content_writeAll file bytes m
    rw [show writeAll file bytes m = (.ok (), m') from h] at hcontent hpart
    rw [hcontent, hpart]
  write_error := by
    intro file bytes source m m' h
    obtain ⟨part, hcontent, hpart⟩ := content_writeAll file bytes m
    rw [show writeAll file bytes m = (.error source, m') from h] at hcontent hpart
    exact ⟨part, hpart, hcontent⟩

theorem flushSparing : FlushSparing fun (name : String) (m : Memory) => m.content name := by
  intro flushed file m
  simp only [Storage.flush, flush]
  split <;> rfl

/-- A medium in memory that has not been told to misbehave in a way that makes a call fail. -/
def Sound (m : Memory) : Prop :=
  m.failOpen = false ∧ m.zeroWrite = false ∧ m.limit = none ∧ m.chunk ≠ some 0

theorem Sound.setContent {m : Memory} (h : m.Sound) (name : String) (bytes : List UInt8) :
    (m.setContent name bytes).Sound := by
  unfold Memory.setContent
  split <;> exact h

theorem Sound.accepts {m : Memory} (h : m.Sound) (size wanted : Nat) :
    ∃ n, m.accepts size (wanted + 1) = some (n + 1) := by
  obtain ⟨-, hzero, hlimit, hchunk⟩ := h
  rw [Memory.accepts, hzero, hlimit]
  cases hc : m.chunk with
  | none => exact ⟨wanted, by simp⟩
  | some chunk =>
    cases chunk with
    | zero => exact (hchunk hc).elim
    | succ chunk => exact ⟨min chunk wanted, by simp⟩

theorem Sound.writeAll {m : Memory} (h : m.Sound) (name : String) (bytes : List UInt8) :
    (Memory.writeAll name bytes m).1 = .ok () ∧ (Memory.writeAll name bytes m).2.Sound := by
  fun_induction Memory.writeAll name bytes m with
  | case1 m => exact ⟨rfl, h⟩
  | case2 m b bs m' old ha =>
    obtain ⟨n, hn⟩ := Sound.accepts (m := m') h old.length bs.length
    rw [List.length_cons, hn] at ha
    cases ha
  | case3 m b bs m' old ha =>
    obtain ⟨n, hn⟩ := Sound.accepts (m := m') h old.length bs.length
    rw [List.length_cons, hn] at ha
    cases ha
  | case4 m b bs m' old n ha ih => exact ih (Sound.setContent (m := m') h name _)

theorem reliable (path : String) :
    Reliable path Sound (fun _ => Sound) fun (name : String) (m : Memory) => m.content name where
  create := by
    intro m h
    let counted : Memory := { m with opens := m.opens + 1 }
    have hs : counted.Sound := h
    have hc : create path m = (.ok path, counted.setContent path []) := by
      simp [create, counted, h.1]
    exact ⟨path, _, hc, hs.setContent path [], content_setContent counted path []⟩
  writeAll := by
    intro file m bytes h
    obtain ⟨hok, hsound⟩ := Sound.writeAll h file bytes
    have hw : Storage.writeAll file bytes m = (.ok (), (writeAll file bytes m).2) :=
      Prod.ext hok rfl
    exact ⟨_, hw, hsound, appending.write_ok hw⟩

end Memory

theorem sparing_notes {σ η : Type} (content : η → σ → List UInt8) :
    Sparing (List ExportRequest) content :=
  fun _ _ _ _ => rfl

theorem untouching_notes (σ : Type) : Untouching (List ExportRequest) σ := fun _ _ _ => rfl

theorem harmless_notes {σ η : Type} (ready : σ → Prop) (usable : η → σ → Prop)
    (content : η → σ → List UInt8) : Harmless (List ExportRequest) ready usable content where
  ready := id
  usable := id
  sparing := sparing_notes content

end TraceJournal
