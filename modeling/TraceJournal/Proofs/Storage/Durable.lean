import TraceJournal.Proofs.Storage.Keeping
import TraceJournal.Proofs.Storage.Laws

/-!
# Media that fail nothing

A medium on which a file can be created, written and flushed, so that it is found afterwards with all
that was written to it. A file system is one for every path under which a file can be made.
-/
namespace TraceJournal

/-- A reliable medium on which a usable file can also be flushed, and what has been flushed is found. -/
structure Durable {σ η : Type} [Storage σ η] (path : String) (ready : σ → Prop) (usable : η → σ → Prop)
    (content : η → σ → List UInt8) (found : σ → Option (List UInt8)) : Prop
    extends Reliable path ready usable content where
  flush : ∀ {file : η} {m : σ}, usable file m →
    ∃ m', Storage.flush file m = (.ok (), m') ∧ found m' = some (content file m)

/-- On a medium that is ready, nothing has to be known but that it is this one. -/
theorem Durable.at {σ η : Type} [Storage σ η] {path : String} {ready : σ → Prop}
    {usable : η → σ → Prop} {content : η → σ → List UInt8} {found : σ → Option (List UInt8)}
    (h : Durable path ready usable content found) {medium : σ} (hm : ready medium) :
    Durable path (· = medium) usable content found where
  create := by
    rintro m rfl
    exact h.create hm
  writeAll := h.writeAll
  flush := h.flush

namespace FileSystem

def found (path : String) (fs : FileSystem) : Option (List UInt8) := (fs.fetch path).toOption

variable {fs : FileSystem} {path : String} {file : Nat} {bytes : List UInt8}

theorem HoldsOpen.found_eq (h : HoldsOpen path file bytes fs) : fs.found path = some bytes := by
  rw [found, h.fetch]
  rfl

theorem durable (path : String) : Durable path (fun fs => fs.WellFormed ∧ fs.Writable path)
    (fun file fs => ∃ bytes, HoldsOpen path file bytes fs)
    (fun (_ : Nat) fs => (fs.found path).getD []) (found path) where
  create := by
    rintro fs ⟨hwell, hwritable⟩
    rcases hwritable.createFile with ⟨number, made, hmade⟩
    have hcreate : fs.create path = (.ok made.opened.length,
        { made with opened := made.opened ++ [⟨number, 0⟩] }) := by
      rw [create, hmade]
    rcases HoldsOpen.of_create hwell hcreate with ⟨hholds, -⟩
    exact ⟨_, _, hcreate, ⟨[], hholds⟩, by rw [hholds.found_eq]; rfl⟩
  writeAll := by
    rintro file fs more ⟨bytes, hholds⟩
    rcases hholds.writeAll more with ⟨after, hwrite, hafter, -⟩
    refine ⟨after, hwrite, ⟨_, hafter⟩, ?_⟩
    rw [hholds.found_eq, hafter.found_eq]
    rfl
  flush := by
    rintro file fs ⟨bytes, hholds⟩
    refine ⟨fs, rfl, ?_⟩
    rw [hholds.found_eq]
    rfl

end FileSystem

end TraceJournal
