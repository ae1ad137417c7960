import TraceJournal.Proofs.Message.Snapshots

/-!
# Logs beside their exporters

A log with an exporter of snapshots and one without handle the same messages side by side. They share
their disk until the file is opened, and from then on all that a log depends on is its own file. So the
two files stay alike, unless a snapshot is put in the place of the log.
-/
namespace TraceJournal

namespace Writer

section

variable {σ η : Type}

def moved (medium : σ) (w : Writer σ η) : Writer σ η := { w with medium }

variable [Storage σ η] {w : Writer σ η} {file : η} {bytes : List UInt8} {other after after' : σ}

theorem append_moved (hf : w.file = some file)
    (hw : Storage.writeAll file bytes w.medium = (.ok (), after))
    (hother : Storage.writeAll file bytes other = (.ok (), after')) (path : String) :
    ∃ medium, (w.moved other).append path bytes =
      ((w.append path bytes).1, (w.append path bytes).2.moved medium) := by
  by_cases hcap : (w.full || !w.fits bytes.length) = true
  · have hcap' : ((w.moved other).full || !(w.moved other).fits bytes.length) = true := hcap
    refine ⟨other, ?_⟩
    rw [append, if_pos hcap', append, if_pos hcap]
    rfl
  · have hcap' : ¬((w.moved other).full || !(w.moved other).fits bytes.length) = true := hcap
    have hf' : (w.moved other).file = some file := hf
    have hother' : Storage.writeAll file bytes (w.moved other).medium = (.ok (), after') := hother
    refine ⟨after', ?_⟩
    rw [append, if_neg hcap', hf', append, if_neg hcap, hf]
    dsimp only
    rw [hw, hother']
    rfl

/-- An open file that takes the bytes on two media takes them alike. -/
theorem write_moved (hf : w.file = some file)
    (hw : Storage.writeAll file bytes w.medium = (.ok (), after))
    (hother : Storage.writeAll file bytes other = (.ok (), after')) :
    ∃ medium, (w.moved other).write bytes =
      ((w.write bytes).1, (w.write bytes).2.moved medium) := by
  cases he : w.enabled with
  | false => exact ⟨other, by simp [write, moved, he]⟩
  | true =>
    cases hn : w.fileName with
    | none => exact ⟨other, by simp [write, moved, he, hn]⟩
    | some path =>
      cases hq : w.fault with
      | some fault => exact ⟨other, by simp [write, moved, he, hn, hq]⟩
      | none =>
        have hwrite : w.write bytes = w.append path bytes := by
          simp [write, ensureOpen, he, hn, hq, hf]
        have hwrite' : (w.moved other).write bytes = (w.moved other).append path bytes := by
          simp [write, ensureOpen, moved, he, hn, hq, hf]
        rw [hwrite, hwrite']
        exact append_moved hf hw hother path

end

/-- Two writers of the log at a path that differ in their disk at most, and that only once its file is
open. It holds the same on both disks. -/
structure Alike (path : String) (v w : Writer FileSystem Nat) : Prop where
  eq_moved : v = w.moved v.medium
  medium_eq : w.file = none → v.medium = w.medium
  onDisk : ∃ held, v.OnDisk id path held ∧ w.OnDisk id path held

namespace Alike

variable {path : String} {v w : Writer FileSystem Nat} {file : Nat} {bytes held : List UInt8}

theorem refl (h : w.OnDisk id path held) : Alike path w w := ⟨rfl, fun _ => rfl, held, h, h⟩

theorem file_eq (h : Alike path v w) : v.file = w.file := by
  rw [h.eq_moved]
  rfl

theorem enabled_eq (h : Alike path v w) : v.enabled = w.enabled := by
  rw [h.eq_moved]
  rfl

theorem holdsOpen (h : Alike path v w) (hf : w.file = some file) :
    ∃ held, v.medium.HoldsOpen path file held ∧ w.medium.HoldsOpen path file held := by
  obtain ⟨held, hv, hw⟩ := h.onDisk
  have hf' : v.file = some file := h.file_eq.trans hf
  cases hv with
  | closed _ hnone => simp [hf'] at hnone
  | opened _ hfile hheld =>
    cases hw with
    | closed _ hnone => simp [hf] at hnone
    | opened _ hfile' hheld' =>
      obtain rfl := Option.some.inj (hf'.symm.trans hfile)
      obtain rfl := Option.some.inj (hf.symm.trans hfile')
      exact ⟨held, hheld, hheld'⟩

theorem fetch_eq (h : Alike path v w) : v.medium.fetch path = w.medium.fetch path := by
  cases hf : w.file with
  | none => rw [h.medium_eq hf]
  | some file =>
    obtain ⟨held, hheld, hheld'⟩ := h.holdsOpen hf
    rw [hheld.fetch, hheld'.fetch]

theorem setEnabled (h : Alike path v w) (enabled : Bool) :
    Alike path (v.setEnabled enabled) (w.setEnabled enabled) := by
  obtain ⟨held, hv, hw⟩ := h.onDisk
  exact ⟨congrArg (Writer.setEnabled enabled) h.eq_moved, h.medium_eq, held, hv.setEnabled enabled,
    hw.setEnabled enabled⟩

theorem write (hb : bytes.length < sliceLimit) (h : Alike path v w) :
    Alike path (v.write bytes).2 (w.write bytes).2 ∧
      (v.write bytes).2.medium.home = v.medium.home := by
  obtain ⟨held, hv, hw⟩ := h.onDisk
  obtain ⟨_, hwrites, -⟩ := write_spec hb v
  obtain ⟨_, hwrites', -⟩ := write_spec hb w
  obtain ⟨hv', helse⟩ := hwrites.onDisk FileSystem.backed hv
  have hw' := (hwrites'.onDisk FileSystem.backed hw).1
  refine ⟨?_, helse.home_eq⟩
  cases hf : w.file with
  | none =>
    have hsame : v = w := by
      rw [h.eq_moved, h.medium_eq hf]
      rfl
    subst hsame
    exact .refl hv'
  | some file =>
    obtain ⟨_, hheld, hheld'⟩ := h.holdsOpen hf
    obtain ⟨after, hwrite, -⟩ := hheld.writeAll bytes
    obtain ⟨after', hwrite', -⟩ := hheld'.writeAll bytes
    obtain ⟨medium, hmoved⟩ := write_moved hf hwrite' hwrite
    rw [← h.eq_moved] at hmoved
    rw [hmoved] at hv' ⊢
    refine ⟨rfl, fun hnone => ?_, _, hv', hw'⟩
    rw [hwrites'.file_eq_none hnone] at hf
    cases hf

/-- An exporter does no harm to a log that is not in its way. -/
theorem deliver {s s' : Snapshots} {result : Except IoError Unit} {medium : FileSystem}
    (h : Alike path v w) (hne : v.medium.place path ≠ v.medium.place s.target)
    (hs : ∀ held, v.OnDisk id path held → Snapshots.Serves id path held v s result s' medium) :
    Alike path (v.moved medium) w ∧ medium.home = v.medium.home ∧
      (s' = s ∨ s' = { s with next := s.next + 1 }) := by
  obtain ⟨held, hv, hw⟩ := h.onDisk
  have hserves := hs held hv
  obtain ⟨hondisk, hhome⟩ := hserves.onDisk hv hne
  refine ⟨⟨?_, fun hnone => ?_, held, hondisk, hw⟩, hhome, hserves.exporter_eq⟩
  · rw [h.eq_moved]
    rfl
  · cases hserves with
    | closed => exact h.medium_eq hnone
    | opened _ hf => simp [h.file_eq, hnone] at hf

end Alike

end Writer

namespace Logger

/-- A log with an exporter of snapshots beside one without, when this many dumps have been asked for. -/
structure Beside (disk : FileSystem) (path directory : String) (dumps : Nat)
    (l plain : Logger FileSystem Nat Snapshots) : Prop where
  alike : l.writer.Alike path plain.writer
  home_eq : l.writer.medium.home = disk.home
  exporter_eq : ∃ n ≤ dumps, l.exporter = some ⟨directory, UInt32.ofNat n⟩
  plain_eq : plain.exporter = none

namespace Beside

variable {disk : FileSystem} {path directory : String} {dumps : Nat}
  {l plain : Logger FileSystem Nat Snapshots}

theorem setUp (hwf : disk.WellFormed) (path directory : String) (budget : UInt32) :
    Beside disk path directory 0 (setUp (some (.into directory)) path budget disk)
      (Logger.setUp none path budget disk) := by
  have hwf' : (id disk).WellFormed := hwf
  obtain ⟨hondisk, hmedium, -⟩ := onDisk_setUp hwf' (none : Option Snapshots) path budget
  exact ⟨.refl hondisk, congrArg FileSystem.home hmedium, ⟨0, Nat.le_refl 0, rfl⟩, rfl⟩

theorem log (h : Beside disk path directory dumps l plain) (r : Record) :
    Beside disk path directory dumps (l.perform (.log r)).2 (plain.perform (.log r)).2 := by
  cases he : plain.writer.enabled with
  | false =>
    rw [perform_log_gated he, perform_log_gated (h.alike.enabled_eq.trans he)]
    exact h
  | true =>
    have he' := h.alike.enabled_eq.trans he
    by_cases hr : r.Encodable
    · rw [perform_log he hr, perform_log he' hr]
      obtain ⟨halike, hhome⟩ := h.alike.write (Record.length_wire_lt hr)
      exact ⟨halike, hhome.trans h.home_eq, h.exporter_eq, h.plain_eq⟩
    · rw [perform_log_refused he hr, perform_log_refused he' hr]
      exact h

theorem enableTrace (h : Beside disk path directory dumps l plain) (enable : Bool) :
    Beside disk path directory dumps (l.perform (.enableTrace enable)).2
      (plain.perform (.enableTrace enable)).2 :=
  ⟨h.alike.setEnabled enable, h.home_eq, h.exporter_eq, h.plain_eq⟩

/-- The number of a snapshot is at most that of the dumps before it, even where it overflows. -/
theorem dumpTrace (hout : ∀ n ≤ dumps, disk.place path ≠ disk.place (Snapshots.file directory n))
    (h : Beside disk path directory dumps l plain) :
    Beside disk path directory (dumps + 1) (l.perform .dumpTrace).2 (plain.perform .dumpTrace).2 := by
  obtain ⟨n, hn, hx⟩ := h.exporter_eq
  have hplain : (plain.perform .dumpTrace).2 = plain := by
    simp [perform, Logger.dumpTrace, h.plain_eq]
  have hne : l.writer.medium.place path ≠
      l.writer.medium.place (Snapshots.target ⟨directory, UInt32.ofNat n⟩) := by
    rw [FileSystem.place_congr h.home_eq, FileSystem.place_congr h.home_eq]
    refine hout _ (Nat.le_trans ?_ hn)
    rw [UInt32.toNat_ofNat']
    exact Nat.mod_le n _
  rcases hd : Exporter.deliver l.exportRequest (⟨directory, UInt32.ofNat n⟩ : Snapshots)
    l.writer.medium with ⟨result, s', medium⟩
  obtain ⟨halike, hhome, hnext⟩ := h.alike.deliver hne fun held hheld =>
    Snapshots.deliver_serves FileSystem.backed hheld hne hd
  rw [hplain, perform, dumpTrace_of_deliver hx hd]
  refine ⟨halike, hhome.trans h.home_eq, ?_, h.plain_eq⟩
  rcases hnext with rfl | rfl
  · exact ⟨n, Nat.le_succ_of_le hn, rfl⟩
  · exact ⟨n + 1, Nat.succ_le_succ hn, by simp [UInt32.ofNat_add]⟩

theorem drain (hwf : disk.WellFormed) (budget : UInt32) (messages : List Message)
    (hout : ∀ n < messages.countP Message.isDump,
      disk.place path ≠ disk.place (Snapshots.file directory n)) :
    Beside disk path directory (messages.countP Message.isDump)
      ((Logger.setUp (some (.into directory)) path budget disk).drain messages).2
      ((Logger.setUp none path budget disk).drain messages).2 := by
  induction messages using List.reverseRecOn with
  | nil => exact .setUp hwf path directory budget
  | append_singleton past message ih =>
    rw [List.countP_append, List.countP_singleton] at hout ⊢
    have hpast := ih fun n hn => hout n (Nat.lt_add_right _ hn)
    rw [drain_snoc, drain_snoc, (dispatch_spec _ _).2, (dispatch_spec _ _).2]
    cases message with
    | trace r => exact hpast.log r
    | enableTrace opcode seq enable => exact hpast.enableTrace enable
    | dumpTrace opcode seq => exact hpast.dumpTrace fun n hn => hout n (Nat.lt_succ_of_le hn)

end Beside

/-- The log file reads the same with snapshots and without them, at any moment of a run, unless it lies
where one of the snapshots is put. -/
theorem fetch_drain_exporter {disk : FileSystem} (hwf : disk.WellFormed) {path directory : String}
    (budget : UInt32) {messages : List Message}
    (hout : ∀ n < messages.countP Message.isDump,
      disk.place path ≠ disk.place (Snapshots.file directory n)) :
    ∀ past, past <+: messages →
      let exporting : Logger FileSystem Nat Snapshots :=
        setUp (some (.into directory)) path budget disk
      let plain : Logger FileSystem Nat Snapshots := setUp none path budget disk
      (exporting.drain past).2.writer.medium.fetch path =
        (plain.drain past).2.writer.medium.fetch path := by
  intro past hpast exporting plain
  have hcount : past.countP Message.isDump ≤ messages.countP Message.isDump :=
    hpast.sublist.countP_le
  have hbeside := Beside.drain hwf budget past
    fun n hn => hout n (Nat.lt_of_lt_of_le hn hcount)
  exact hbeside.alike.fetch_eq

/-- Beside its snapshots, a log is safe where the next one would be put. -/
theorem fetch_drain_exporter_nextName :
    let disk := (FileSystem.empty.ensureDirectory "dp").2
    let path := "dp/trace-dp-0001.bin"
    let messages : List Message := [.trace default, .dumpTrace 1 2, .trace default]
    let exporting : Logger FileSystem Nat Snapshots := setUp (some (.into "dp")) path 100 disk
    disk.WellFormed ∧ (∀ n < messages.countP Message.isDump,
      disk.place path ≠ disk.place (Snapshots.file "dp" n)) ∧
      (exporting.drain messages).2.writer.medium.fetch path =
        .ok ((default : Record).wire ++ (default : Record).wire) := by
  have hwf : (FileSystem.empty.ensureDirectory "dp").2.WellFormed :=
    (@FileSystem.keeps_ensureDirectory _ [] "dp" FileSystem.wellFormed_empty).1.wellFormed
  have hout : ∀ n < [Message.trace default, .dumpTrace 1 2, .trace default].countP Message.isDump,
      (FileSystem.empty.ensureDirectory "dp").2.place "dp/trace-dp-0001.bin" ≠
        (FileSystem.empty.ensureDirectory "dp").2.place (Snapshots.file "dp" n) := by
    decide
  refine ⟨hwf, hout, ?_⟩
  rw [fetch_drain_exporter hwf 100 hout _ (List.prefix_refl _)]
  decide +kernel

/-- A log that lies where its first snapshot is put is emptied by it, although all goes well, and what
is written later comes after a gap. -/
theorem fetch_drain_exporter_ownName :
    let disk := (FileSystem.empty.ensureDirectory "dp").2
    let path := "dp/trace-dp-0000.bin"
    let event : Record := { (default : Record) with id := 1 }
    let messages : List Message := [.trace event, .dumpTrace 1 2, .trace event]
    let exporting : Logger FileSystem Nat Snapshots := setUp (some (.into "dp")) path 100 disk
    let plain : Logger FileSystem Nat Snapshots := setUp none path 100 disk
    (exporting.drain messages).1 = (plain.drain messages).1 ∧
      (exporting.drain messages).1.written = 2 ∧
      (exporting.drain messages).1.commands = [⟨1, 2, .ok⟩] ∧
      (exporting.drain (messages.take 2)).2.writer.medium.fetch path = .ok [] ∧
      (exporting.drain messages).2.writer.medium.fetch path =
        .ok (List.replicate 18 0 ++ event.wire) ∧
      (plain.drain messages).2.writer.medium.fetch path = .ok (event.wire ++ event.wire) ∧
      (exporting.drain messages).2.writer.medium.fetch path ≠
        (plain.drain messages).2.writer.medium.fetch path := by
  decide +kernel

end Logger

end TraceJournal
