import TraceJournal.Proofs.Log.Latches
import TraceJournal.Proofs.Storage.Troubled

/-!
# Logs on a disk

On a disk a log that could be opened can be written: what its file holds is what has been answered as
written, and all other files stay as they are.
-/
namespace TraceJournal

open FileSystem (HoldsOpen KeepsElsewhere)

variable {σ : Type} [Storage σ Nat] [Directories σ] {disk : σ → FileSystem} {path : String}
  {w after : Writer σ Nat} {file : Nat} {bytes held : List UInt8}
  {result : Except LogError Disposition} {requests : List Request}

def Writer.added (bytes : List UInt8) : Except LogError Disposition → List UInt8
  | .ok (.written _) => bytes
  | _ => []

/-- A writer of the log at a path, whose file holds these bytes once it is open. -/
inductive Writer.OnDisk (disk : σ → FileSystem) (path : String) (w : Writer σ Nat)
    (held : List UInt8) : Prop
  | closed (hn : ∀ name, w.fileName = some name → name = path) (hf : w.file = none)
      (hwf : (disk w.medium).WellFormed) (hnone : held = []) : OnDisk disk path w held
  | opened {file : Nat} (hn : w.fileName = some path) (hf : w.file = some file)
      (hheld : (disk w.medium).HoldsOpen path file held) (hc : w.byteCount.toNat = held.length) :
      OnDisk disk path w held

namespace Writer

omit [Storage σ Nat] [Directories σ] in
/-- A new writer that is given a file, whether it accepts it or not. -/
theorem Configures.onDisk {medium : σ} {budget : UInt32} {outcome : Except LogError Unit}
    (hwf : (disk medium).WellFormed) (h : (new medium).Configures path budget outcome w) :
    w.OnDisk disk path [] ∧ w.medium = medium ∧ w.file = none := by
  cases h with
  | alreadyOpen hf => cases hf
  | refused => exact ⟨.closed (by simp) rfl hwf rfl, rfl, rfl⟩
  | accepted => exact ⟨.closed (by simp) rfl hwf rfl, rfl, rfl⟩

omit [Storage σ Nat] [Directories σ] in
theorem OnDisk.setEnabled (h : w.OnDisk disk path held) (enabled : Bool) :
    (w.setEnabled enabled).OnDisk disk path held := by
  cases h with
  | closed hn hf hwf hnone => exact .closed hn hf hwf hnone
  | opened hn hf hheld hc => exact .opened hn hf hheld hc

theorem Appends.onDisk {name : String} (hb : Backed disk)
    (ha : w.Appends name bytes file result requests after) (hn : w.fileName = some path)
    (hf : w.file = some file) (hheld : (disk w.medium).HoldsOpen path file held)
    (hc : w.byteCount.toNat = held.length) :
    OnDisk disk path after (held ++ added bytes result) ∧
      (disk w.medium).KeepsElsewhere path (disk after.medium) := by
  obtain ⟨fs, hwrite, hheld', helse⟩ := hheld.writeAll bytes
  cases ha with
  | capped =>
    refine ⟨.opened hn hf ?_ ?_, .refl path _⟩
    · simpa [added] using hheld
    · simpa [added] using hc
  | written hfull hfit hw hcount =>
    rw [hb.writeAll hw] at hwrite
    cases hwrite
    refine ⟨.opened hn hf hheld' ?_, helse⟩
    rw [added, hcount, hc, List.length_append]
  | failed hfull hfit hw =>
    rw [hb.writeAll hw] at hwrite
    cases hwrite

/-- A record is added to the file if it is answered as written, and the medium cannot fail an open
file. -/
theorem Writes.onDisk (hb : Backed disk) (h : w.OnDisk disk path held)
    (hw : w.Writes bytes result requests after) :
    after.OnDisk disk path (held ++ added bytes result) ∧
      (disk w.medium).KeepsElsewhere path (disk after.medium) := by
  cases hw with
  | disabled | unconfigured | unavailable => exact ⟨by simpa [added] using h, .refl path _⟩
  | openFailed he hn hq hf hc =>
    cases h with
    | closed hname _ hwf hnone =>
      have hsame := FileSystem.eq_of_create_error (hb.create hc)
      refine ⟨.closed hname hf (hsame.symm ▸ hwf) (by rw [hnone]; rfl), ?_⟩
      rw [hsame]
      exact .refl path _
    | opened hn' hf' => simp [hf'] at hf
  | @opened name file medium result requests after he hn hq hf hc ha =>
    cases h with
    | closed hname _ hwf hnone =>
      subst hnone
      obtain rfl := hname name hn
      obtain ⟨hheld, helse⟩ := HoldsOpen.of_create hwf (hb.create hc)
      have hopen := ha.onDisk hb hn rfl hheld rfl
      exact ⟨hopen.1, helse.trans hopen.2⟩
    | opened hn' hf' => simp [hf'] at hf
  | @held name file result requests after he hn hq hf ha =>
    cases h with
    | closed hname hf' => simp [hf'] at hf
    | opened hn' hf' hheld hc =>
      rw [hf, Option.some.injEq] at hf'
      subst hf'
      exact ha.onDisk hb hn' hf hheld hc

omit [Directories σ] in
theorem Writes.file_eq_none (hw : w.Writes bytes result requests after) (hf : after.file = none) :
    w.file = none := by
  cases hw with
  | disabled | unconfigured | unavailable => exact hf
  | openFailed he hn hq hf' => exact hf'
  | opened he hn hq hf' => exact hf'
  | held he hn hq hf' ha => rwa [ha.file_eq] at hf

end Writer

namespace Logger

/-- A new log on a medium that is given its file, with an exporter perhaps. -/
def setUp {σ η ξ : Type} (exporter : Option ξ) (path : String) (budget : UInt32) (medium : σ) :
    Logger σ η ξ :=
  (((new medium).setExporter exporter).setLogFile path budget).2

omit [Storage σ Nat] [Directories σ] in
theorem onDisk_setUp {ξ : Type} {medium : σ} (hwf : (disk medium).WellFormed) (exporter : Option ξ)
    (path : String) (budget : UInt32) :
    let w : Writer σ Nat := (setUp exporter path budget medium).writer
    w.OnDisk disk path [] ∧ w.medium = medium ∧ w.file = none :=
  (Writer.setLogFile_spec path budget (Writer.new medium)).onDisk hwf

end Logger

end TraceJournal
