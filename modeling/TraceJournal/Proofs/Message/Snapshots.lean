import TraceJournal.Proofs.Log.OnDisk
import TraceJournal.Proofs.Log.Snapshot
import TraceJournal.Proofs.Log.Stored
import TraceJournal.Proofs.Message.Drain
import TraceJournal.Proofs.Record.Exactness

/-!
# Snapshots of a drain

A dump of an open log is numbered by the successful dumps before it, and its file keeps what the log
held at that time: no later copy goes to the same place, and the log grows elsewhere.
-/
namespace TraceJournal

/-- Whether the call was a dump of an open log that succeeded. -/
def Event.delivered (e : Event) : Bool :=
  match e.call, e.mode, e.answer with
  | .dumpTrace, .opened, .replied .ok => true
  | _, _, _ => false

def snapshotCount (events : List Event) : Nat := events.countP Event.delivered

theorem writtenRecords_snoc (events : List Event) (e : Event) :
    writtenRecords (events ++ [e]) = writtenRecords events ++ e.written?.toList := by
  cases h : e.written? <;> simp [writtenRecords, h]

theorem snapshotCount_snoc (events : List Event) (e : Event) :
    snapshotCount (events ++ [e]) = snapshotCount events + if e.delivered = true then 1 else 0 := by
  simp [snapshotCount, List.countP_append, List.countP_singleton]

theorem eq_append_cons_snoc {es earlier later : List Event} {e f : Event}
    (h : es ++ [e] = earlier ++ f :: later) :
    (es = earlier ∧ e = f) ∨ ∃ rest, es = earlier ++ f :: rest := by
  rcases List.eq_nil_or_concat later with rfl | ⟨rest, last, rfl⟩
  · exact .inl (by simpa using h)
  · refine .inr ⟨rest, ?_⟩
    rw [List.concat_eq_append, ← List.cons_append, ← List.append_assoc] at h
    exact (List.append_inj' h rfl).1

/-- Every number below that of the snapshots is that of a snapshot. -/
theorem exists_snapshot {es : List Event} {n : Nat} (h : n < snapshotCount es) :
    ∃ earlier e later, es = earlier ++ e :: later ∧ e.delivered = true ∧
      snapshotCount earlier = n := by
  induction es using List.reverseRecOn with
  | nil => cases h
  | append_singleton es e ih =>
    by_cases hn : n < snapshotCount es
    · obtain ⟨earlier, f, later, rfl, hf, hcount⟩ := ih hn
      exact ⟨earlier, f, later ++ [e], by simp, hf, hcount⟩
    · rw [snapshotCount_snoc] at h
      split at h
      · next he => exact ⟨es, e, [], rfl, he, by omega⟩
      · omega

/-- The records that had been written when fewer snapshots had been made come first. -/
theorem writtenRecords_eq_append {es : List Event} {first first' later later' : List Event}
    (h : es = first ++ later) (h' : es = first' ++ later')
    (hlt : snapshotCount first < snapshotCount first') :
    ∃ rest, writtenRecords first' = writtenRecords first ++ rest := by
  have hprefix : first <+: first' := by
    rcases List.prefix_or_prefix_of_prefix ⟨later, h.symm⟩ ⟨later', h'.symm⟩ with hle | hge
    · exact hle
    · have hcount : snapshotCount first' ≤ snapshotCount first := hge.sublist.countP_le
      exact absurd hlt (Nat.not_lt.2 hcount)
  obtain ⟨rest, rfl⟩ := hprefix
  exact ⟨writtenRecords rest, List.filterMap_append⟩

def Message.isDump : Message → Bool
  | dumpTrace _ _ => true
  | trace _ | enableTrace _ _ _ => false

theorem snapshotCount_le {σ η ξ : Type} [Storage σ η] [Exporter ξ σ] (l : Logger σ η ξ)
    (messages : List Message) :
    snapshotCount (l.events (messages.map Message.call)) ≤ messages.countP Message.isDump := by
  have hdumps : (l.events (messages.map Message.call)).countP (fun e => e.call = .dumpTrace) =
      messages.countP Message.isDump := by
    have hcalls := congrArg (List.countP fun call => decide (call = Call.dumpTrace))
      (Logger.map_call_events (messages.map Message.call) l)
    rw [List.countP_map, List.countP_map] at hcalls
    refine hcalls.trans (List.countP_congr fun message _ => ?_)
    cases message <;> simp [Message.call, Message.isDump]
  rw [← hdumps]
  refine List.countP_mono_left fun e _ he => ?_
  unfold Event.delivered at he
  split at he
  · next hcall _ _ => simp [hcall]
  · cases he

namespace Snapshots

/-- What a snapshot is worth on a disk: its file holds these records and no more, and the files of all
later snapshots and the log begin like it. -/
structure Lasts (disk : FileSystem) (path directory : String) (n total : Nat)
    (records : List Record) : Prop where
  fetch_eq : disk.fetch (file directory n) = .ok (records.flatMap Record.wire)
  decodeAll_eq : Record.decodeAll (records.flatMap Record.wire) = .ok records
  later : ∀ m, n < m → m < total →
    ∃ more, disk.fetch (file directory m) = .ok (records.flatMap Record.wire ++ more)
  log : ∃ more, disk.fetch path = .ok (records.flatMap Record.wire ++ more)

end Snapshots

variable {σ : Type} [Storage σ Nat] [Directories σ] {disk : σ → FileSystem} {start : FileSystem}
  {path directory : String}

/-- A log with an exporter of snapshots, by what has taken place since it was given its file on a disk
that was in the state `start` then. -/
structure Exporting (disk : σ → FileSystem) (start : FileSystem) (path directory : String)
    (es : List Event) (l : Logger σ Nat Snapshots) : Prop where
  home_eq : (disk l.writer.medium).home = start.home
  onDisk : l.writer.OnDisk disk path ((writtenRecords es).flatMap Record.wire)
  exporter_eq : l.exporter = some ⟨directory, UInt32.ofNat (snapshotCount es)⟩
  unopened : l.writer.file = none → snapshotCount es = 0
  encodable : ∀ r ∈ writtenRecords es, r.Encodable
  fetch_eq : ∀ {earlier later : List Event} {e : Event}, es = earlier ++ e :: later →
    e.delivered = true → (disk l.writer.medium).fetch
      (Snapshots.file directory (snapshotCount earlier)) =
        .ok ((writtenRecords earlier).flatMap Record.wire)

namespace Exporting

open FileSystem (KeepsElsewhere)

variable {es : List Event} {l l' : Logger σ Nat Snapshots} {message : Message} {e : Event}
  {handled : Handled}

omit [Storage σ Nat] [Directories σ] in
theorem exporter_ne_none (h : Exporting disk start path directory es l) : l.exporter ≠ none := by
  simp [h.exporter_eq]

omit [Storage σ Nat] [Directories σ] in
theorem apart (h : Exporting disk start path directory es l)
    (hout : ∀ n, start.place path ≠ start.place (Snapshots.file directory n)) (n : Nat) :
    (disk l.writer.medium).place path ≠
      (disk l.writer.medium).place (Snapshots.file directory n) := by
  rw [FileSystem.place_congr h.home_eq, FileSystem.place_congr h.home_eq]
  exact hout n

omit [Storage σ Nat] [Directories σ] in
/-- One more event, after which the snapshots made before are still there. -/
theorem snoc (h : Exporting disk start path directory es l)
    (hhome : (disk l'.writer.medium).home = (disk l.writer.medium).home)
    (hondisk : l'.writer.OnDisk disk path ((writtenRecords (es ++ [e])).flatMap Record.wire))
    (hexporter : l'.exporter = some ⟨directory, UInt32.ofNat (snapshotCount (es ++ [e]))⟩)
    (hunopened : l'.writer.file = none → snapshotCount (es ++ [e]) = 0)
    (hr : ∀ r ∈ e.written?, r.Encodable)
    (hkept : ∀ {n : Nat} {bytes : List UInt8}, n < snapshotCount es →
      (disk l.writer.medium).fetch (Snapshots.file directory n) = .ok bytes →
        (disk l'.writer.medium).fetch (Snapshots.file directory n) = .ok bytes)
    (hnew : e.delivered = true →
      (disk l'.writer.medium).fetch (Snapshots.file directory (snapshotCount es)) =
        .ok ((writtenRecords es).flatMap Record.wire)) :
    Exporting disk start path directory (es ++ [e]) l' where
  home_eq := hhome.trans h.home_eq
  onDisk := hondisk
  exporter_eq := hexporter
  unopened := hunopened
  encodable := by
    rw [writtenRecords_snoc, List.forall_mem_append]
    exact ⟨h.encodable, by simpa using hr⟩
  fetch_eq {earlier later f} hsplit hf := by
    rcases eq_append_cons_snoc hsplit with ⟨rfl, rfl⟩ | ⟨rest, rfl⟩
    · exact hnew hf
    · refine hkept ?_ (h.fetch_eq rfl hf)
      simp [snapshotCount, List.countP_append, hf]

omit [Storage σ Nat] [Directories σ] in
theorem calm (h : Exporting disk start path directory es l)
    (hout : ∀ n, start.place path ≠ start.place (Snapshots.file directory n))
    (he : e.delivered = false)
    (hondisk : l'.writer.OnDisk disk path
      ((writtenRecords es).flatMap Record.wire ++ e.written?.toList.flatMap Record.wire))
    (helse : (disk l.writer.medium).KeepsElsewhere path (disk l'.writer.medium))
    (hexporter : l'.exporter = l.exporter) (hfile : l'.writer.file = none → l.writer.file = none)
    (hr : ∀ r ∈ e.written?, r.Encodable) :
    Exporting disk start path directory (es ++ [e]) l' := by
  have hcount : snapshotCount (es ++ [e]) = snapshotCount es := by simp [snapshotCount_snoc, he]
  refine h.snoc helse.home_eq ?_ ?_ ?_ hr ?_ ?_
  · rwa [writtenRecords_snoc, List.flatMap_append]
  · rw [hexporter, h.exporter_eq, hcount]
  · rw [hcount]
    exact fun hf => h.unopened (hfile hf)
  · exact fun {n bytes} _ hfetch => helse.fetch hfetch (h.apart hout n).symm
  · simp [he]

omit [Storage σ Nat] [Directories σ] in
theorem wire_written? (r : Record) (result : Except LogError Disposition) (requests : List Request)
    (l : Logger σ Nat Snapshots) :
    (l.eventOf (.log r) (.traced result) requests).written?.toList.flatMap Record.wire =
      Writer.added r.wire result := by
  rcases result with _ | (_ | _ | _ | _ | _) <;> simp [Event.written?, Writer.added]

theorem exporter_serves (hb : Backed disk)
    (hout : ∀ n, start.place path ≠ start.place (Snapshots.file directory n))
    (h : Exporting disk start path directory es l) {exporter s' : Snapshots}
    {result : Except IoError Unit} {medium : σ} (hx : l.exporter = some exporter)
    (hd : Exporter.deliver l.exportRequest exporter l.writer.medium = (result, s', medium)) :
    Snapshots.Serves disk path ((writtenRecords es).flatMap Record.wire) l.writer
      ⟨directory, UInt32.ofNat (snapshotCount es)⟩ result s' medium := by
  obtain rfl : exporter = ⟨directory, UInt32.ofNat (snapshotCount es)⟩ :=
    Option.some.inj (hx.symm.trans h.exporter_eq)
  exact Snapshots.deliver_serves hb h.onDisk (h.apart hout _) hd

omit [Storage σ Nat] in
theorem dump (hout : ∀ n, start.place path ≠ start.place (Snapshots.file directory n))
    (hfew : snapshotCount es < UInt32.size) (h : Exporting disk start path directory es l)
    {result : Except IoError Unit} {s' : Snapshots} {medium : σ}
    (hs : Snapshots.Serves disk path ((writtenRecords es).flatMap Record.wire) l.writer
      ⟨directory, UInt32.ofNat (snapshotCount es)⟩ result s' medium) :
    Exporting disk start path directory
      (es ++ [l.eventOf .dumpTrace (.replied (Logger.delivery result)) []])
      { l with exporter := some s', writer := { l.writer with medium := medium } } := by
  obtain ⟨hondisk, hhome⟩ := hs.onDisk h.onDisk (h.apart hout _)
  cases hs with
  | closed hf =>
    refine h.calm hout ?_ ?_ (.refl _ _) h.exporter_eq.symm id (by simp [Event.written?])
    · simp [Event.delivered, Writer.mode, hf]
    · simpa [Event.written?] using h.onDisk
  | opened hn hf hheld hc hd =>
    have htarget : Snapshots.target ⟨directory, UInt32.ofNat (snapshotCount es)⟩ =
        Snapshots.file directory (snapshotCount es) := by
      rw [Snapshots.target_eq, UInt32.toNat_ofNat_of_lt' hfew]
    refine h.snoc hhome ?_ ?_ (by simp [hf]) (by simp [Event.written?]) ?_ ?_
    · simpa [writtenRecords_snoc, Event.written?] using hondisk
    · cases hd <;> simp [snapshotCount_snoc, Event.delivered, Logger.delivery, Writer.mode, hf]
    · -- The new file has a greater number than those that are there.
      intro n bytes hlt hfetch
      refine hd.keeps.1.fetch hfetch fun hsame => ?_
      rw [htarget] at hsame
      exact Nat.ne_of_lt hlt (Snapshots.place_file_injective _ directory hsame)
    · intro hdelivered
      cases hd with
      | copied _ _ _ hfetch => rwa [htarget] at hfetch
      | failed => simp [Event.delivered, Logger.delivery] at hdelivered

theorem step (hb : Backed disk)
    (hout : ∀ n, start.place path ≠ start.place (Snapshots.file directory n))
    (hfew : snapshotCount es < UInt32.size)
    (h : Exporting disk start path directory es l) (hs : l.Serves message e handled l') :
    Exporting disk start path directory (es ++ [e]) l' := by
  cases hs with
  | gated | refused =>
    refine h.calm hout rfl ?_ (.refl _ _) rfl id (by simp [Event.written?])
    simpa [Event.written?] using h.onDisk
  | @offered r result requests w he hr hw =>
    obtain ⟨hondisk, helse⟩ := hw.onDisk hb h.onDisk
    refine h.calm hout rfl ?_ helse rfl hw.file_eq_none ?_
    · rwa [wire_written?]
    · intro r' hr'
      rcases result with _ | (_ | _ | _ | _ | _) <;> cases hr'
      exact hr
  | switched enable =>
    have hondisk : (l.setEnabled enable).writer.OnDisk disk path _ := h.onDisk.setEnabled enable
    refine h.calm hout rfl ?_ (.refl _ _) rfl id (by simp [Event.written?])
    simpa [Event.written?] using hondisk
  | undelivered hx => exact absurd hx h.exporter_ne_none
  | delivered hx hd => exact h.dump hout hfew (h.exporter_serves hb hout hx hd)

omit [Storage σ Nat] [Directories σ] in
theorem setUp (budget : UInt32) {medium : σ} (hwf : (disk medium).WellFormed) :
    Exporting disk (disk medium) path directory []
      (Logger.setUp (some (.into directory)) path budget medium) := by
  obtain ⟨hondisk, hmedium, -⟩ :=
    Logger.onDisk_setUp hwf (some (Snapshots.into directory)) path budget
  refine ⟨?_, hondisk, rfl, fun _ => rfl, by simp [writtenRecords], by simp⟩
  rw [hmedium]

/-- Draining keeps all that is known of the log and its snapshots, as long as their number does not
overflow. -/
theorem drain (hb : Backed disk)
    (hout : ∀ n, start.place path ≠ start.place (Snapshots.file directory n))
    (h : Exporting disk start path directory [] l) (messages : List Message)
    (hfew : snapshotCount (l.events (messages.map Message.call)) < UInt32.size) :
    Exporting disk start path directory (l.events (messages.map Message.call))
      (l.drain messages).2 := by
  refine Logger.drain_induction (P := fun _ _ es l => snapshotCount es < UInt32.size →
    Exporting disk start path directory es l) ?_ (fun _ => h) messages hfew
  intro past s es l l' message e handled ih hp hh hfew
  rw [snapshotCount_snoc] at hfew
  have hfew' : snapshotCount es < UInt32.size := by omega
  exact (ih hfew').step hb hout hfew' (hp.serves hh)

omit [Storage σ Nat] [Directories σ] in
theorem fetch_log (h : Exporting disk start path directory es l) (hne : snapshotCount es ≠ 0) :
    (disk l.writer.medium).fetch path = .ok ((writtenRecords es).flatMap Record.wire) := by
  cases h.onDisk with
  | closed _ hf => exact absurd (h.unopened hf) hne
  | opened _ _ hheld => exact hheld.fetch

omit [Storage σ Nat] [Directories σ] in
theorem lasts (h : Exporting disk start path directory es l) {earlier later : List Event} {e : Event}
    (hsplit : es = earlier ++ e :: later) (he : e.delivered = true) :
    Snapshots.Lasts (disk l.writer.medium) path directory (snapshotCount earlier) (snapshotCount es)
      (writtenRecords earlier) := by
  have hlt : snapshotCount earlier < snapshotCount es := by
    simp [hsplit, snapshotCount, List.countP_append, he]
  constructor
  · exact h.fetch_eq hsplit he
  · refine Record.decodeAll_eq_ok_iff.2 ⟨fun r hr => h.encodable r ?_, rfl⟩
    rw [hsplit, writtenRecords, List.filterMap_append]
    exact List.mem_append_left _ hr
  · intro m hm hm'
    obtain ⟨earlier', e', later', hsplit', he', rfl⟩ := exists_snapshot hm'
    obtain ⟨rest, hrest⟩ := writtenRecords_eq_append hsplit hsplit' hm
    refine ⟨rest.flatMap Record.wire, ?_⟩
    rw [h.fetch_eq hsplit' he', hrest, List.flatMap_append]
  · obtain ⟨rest, hrest⟩ := writtenRecords_eq_append hsplit (List.append_nil es).symm hlt
    refine ⟨rest.flatMap Record.wire, ?_⟩
    rw [h.fetch_log (Nat.ne_of_gt (Nat.zero_lt_of_lt hlt)), hrest, List.flatMap_append]

theorem dispatch_dump (hb : Backed disk)
    (hout : ∀ n, start.place path ≠ start.place (Snapshots.file directory n))
    (h : Exporting disk start path directory es l) (opcode seq : UInt32) :
    ∃ result s' medium, Snapshots.Serves disk path ((writtenRecords es).flatMap Record.wire) l.writer
        ⟨directory, UInt32.ofNat (snapshotCount es)⟩ result s' medium ∧
      l.dispatch (.dumpTrace opcode seq) = (.command ⟨opcode, seq, Logger.delivery result⟩,
        { l with exporter := some s', writer := { l.writer with medium := medium } }) ∧
      l.event .dumpTrace = l.eventOf .dumpTrace (.replied (Logger.delivery result)) [] := by
  have hs : l.Serves (.dumpTrace opcode seq) (l.event .dumpTrace)
      (l.dispatch (.dumpTrace opcode seq)).1 (l.dispatch (.dumpTrace opcode seq)).2 :=
    l.dispatch_serves (.dumpTrace opcode seq)
  generalize l.event .dumpTrace = e at hs ⊢
  generalize l.dispatch (.dumpTrace opcode seq) = dumped at hs ⊢
  rcases dumped with ⟨handled, l'⟩
  dsimp only at hs
  cases hs with
  | undelivered hx => exact absurd hx h.exporter_ne_none
  | delivered hx hd => exact ⟨_, _, _, h.exporter_serves hb hout hx hd, rfl, rfl⟩

theorem dispatch_closed (hb : Backed disk)
    (hout : ∀ n, start.place path ≠ start.place (Snapshots.file directory n))
    (h : Exporting disk start path directory es l) (hmode : l.writer.mode = .closed)
    (opcode seq : UInt32) :
    l.dispatch (.dumpTrace opcode seq) = (.command ⟨opcode, seq, .ok⟩, l) := by
  obtain ⟨result, s', medium, hserves, hdispatch, -⟩ := h.dispatch_dump hb hout opcode seq
  cases hserves with
  | closed =>
    rw [hdispatch, ← h.exporter_eq]
    rfl
  | opened hn hf => simp [Writer.mode, hf] at hmode

/-- A dump of an open log succeeds exactly if the log can be copied. -/
theorem dispatch_opened (hb : Backed disk)
    (hout : ∀ n, start.place path ≠ start.place (Snapshots.file directory n))
    (hfew : snapshotCount es < UInt32.size) (h : Exporting disk start path directory es l)
    (hmode : l.writer.mode = .opened) (opcode seq : UInt32) :
    let dumped := l.dispatch (.dumpTrace opcode seq)
    let can := Snapshots.CanCopy path directory (snapshotCount es) l.writer.medium
    ((writtenRecords es).flatMap Record.wire).length = l.writer.byteCount.toNat ∧
      (can → dumped.1 = .command ⟨opcode, seq, .ok⟩ ∧ (l.event .dumpTrace).delivered = true) ∧
      (¬can → dumped.1 = .command ⟨opcode, seq, .executionError⟩ ∧
        dumped.2.exporter = l.exporter) := by
  intro dumped can
  obtain ⟨result, s', medium, hserves, hdispatch, hevent⟩ := h.dispatch_dump hb hout opcode seq
  have hdumped : dumped = _ := hdispatch
  have hnumber : (UInt32.ofNat (snapshotCount es)).toNat = snapshotCount es :=
    UInt32.toNat_ofNat_of_lt' hfew
  rw [hdumped, hevent, h.exporter_eq]
  cases hserves with
  | closed hf => simp [Writer.mode, hf] at hmode
  | opened hn hf hheld hc hd =>
    refine ⟨hc.symm, ?_⟩
    cases hd with
    | copied hcan =>
      rw [hnumber] at hcan
      exact ⟨fun _ => ⟨rfl, by simp [Event.delivered, Logger.delivery, hmode]⟩,
        fun hcan' => absurd hcan hcan'⟩
    | failed hcan =>
      rw [hnumber] at hcan
      exact ⟨fun hcan' => absurd hcan' hcan, fun _ => ⟨rfl, rfl⟩⟩

end Exporting

namespace Logger

/-- What becomes of a dump that finds the log in the state `log`, after `n` snapshots of these records,
when the run has ended with `total` snapshots. A closed log is left alone. A dump of an open one is
answered by whether it can be copied; only a copy that succeeds uses up a number. -/
structure DumpOutcome (path directory : String) (n total : Nat) (records : List Record)
    (opcode seq : UInt32) (log : Logger Troubled Nat Snapshots) (final : FileSystem) : Prop where
  closed : log.writer.mode = .closed →
    log.dispatch (.dumpTrace opcode seq) = (.command ⟨opcode, seq, .ok⟩, log)
  byteCount_eq : log.writer.mode = .opened →
    (records.flatMap Record.wire).length = log.writer.byteCount.toNat
  copied : log.writer.mode = .opened → Snapshots.CanCopy path directory n log.writer.medium →
    (log.dispatch (.dumpTrace opcode seq)).1 = .command ⟨opcode, seq, .ok⟩ ∧
      Snapshots.Lasts final path directory n total records
  failed : log.writer.mode = .opened → ¬Snapshots.CanCopy path directory n log.writer.medium →
    (log.dispatch (.dumpTrace opcode seq)).1 = .command ⟨opcode, seq, .executionError⟩ ∧
      (log.dispatch (.dumpTrace opcode seq)).2.exporter = log.exporter

/-- Draining into a new log on a disk on which copies may fail in any pattern, with snapshots in a
directory that the log does not lie in: every dump among the messages is numbered by the dumps of the
open log that have succeeded before, and what it copies is what has been written until then. -/
theorem drain_snapshots {disk : FileSystem} (hwf : disk.WellFormed) {path directory : String}
    (hout : ∀ name, disk.place path ≠ disk.place directory ++ [name]) (troubles : List Trouble)
    (budget : UInt32) (before later : List Message) (opcode seq : UInt32)
    (hfew : (before ++ .dumpTrace opcode seq :: later).countP Message.isDump < UInt32.size) :
    let messages := before ++ .dumpTrace opcode seq :: later
    let start : Logger Troubled Nat Snapshots :=
      setUp (some (.into directory)) path budget ⟨disk, troubles⟩
    let events := start.events (before.map Message.call)
    let total := snapshotCount (start.events (messages.map Message.call))
    DumpOutcome path directory (snapshotCount events) total (writtenRecords events) opcode seq
      (start.drain before).2 (start.drain messages).2.writer.medium.disk := by
  intro messages start events total
  let log := (start.drain before).2
  have hapart (n : Nat) : disk.place path ≠ disk.place (Snapshots.file directory n) := by
    rw [Snapshots.place_file]
    exact hout _
  have htotal : total < UInt32.size := Nat.lt_of_le_of_lt (snapshotCount_le start messages) hfew
  have hall : start.events (messages.map Message.call) = events ++ log.event .dumpTrace ::
      (log.perform .dumpTrace).2.events (later.map Message.call) := by
    rw [List.map_append, events_append, ← drain_after]
    rfl
  have hevents : snapshotCount events < UInt32.size := by
    refine Nat.lt_of_le_of_lt ?_ htotal
    simp only [total, hall, snapshotCount, List.countP_append]
    exact Nat.le_add_right _ _
  have hstart : Exporting Troubled.disk disk path directory [] start :=
    @Exporting.setUp _ Troubled.disk path directory budget ⟨disk, troubles⟩ hwf
  have hlog := hstart.drain Troubled.backed hapart before hevents
  have hfinal := hstart.drain Troubled.backed hapart messages htotal
  have hopened (hmode : log.writer.mode = .opened) :=
    hlog.dispatch_opened Troubled.backed hapart hevents hmode opcode seq
  refine ⟨fun hmode => hlog.dispatch_closed Troubled.backed hapart hmode opcode seq,
    fun hmode => (hopened hmode).1, fun hmode hcan => ?_, fun hmode => (hopened hmode).2.2⟩
  obtain ⟨hresponse, hdelivered⟩ := (hopened hmode).2.1 hcan
  exact ⟨hresponse, hfinal.lasts hall hdelivered⟩

/-- Where the directory cannot be made a second time, the first of two dumps succeeds. -/
theorem drain_snapshots_once :
    let start : Logger Troubled Nat Snapshots := setUp (some (.into "dumps")) "trace.bin" 100
      ⟨.empty, [.none, .none, .refused .alreadyExists]⟩
    let messages : List Message :=
      [.trace default] ++ .dumpTrace 1 2 :: [.trace default, .dumpTrace 1 3]
    let log := (start.drain [.trace default]).2
    log.writer.mode = .opened ∧ Snapshots.CanCopy "trace.bin" "dumps" 0 log.writer.medium ∧
      DumpOutcome "trace.bin" "dumps" 0 1 [default] 1 2 log
        (start.drain messages).2.writer.medium.disk := by
  have hout : ∀ name, FileSystem.empty.place "trace.bin" ≠
      FileSystem.empty.place "dumps" ++ [name] := by
    have hlog : FileSystem.empty.place "trace.bin" = ["home", "trace.bin"] := by decide
    have hdumps : FileSystem.empty.place "dumps" = ["home", "dumps"] := by decide
    simp [hlog, hdumps]
  have hfew : ([.trace default] ++ .dumpTrace 1 2 :: [.trace default, .dumpTrace 1 3] :
      List Message).countP Message.isDump < UInt32.size :=
    Nat.lt_of_le_of_lt (m := 2) (by decide) (by decide)
  have houtcome := drain_snapshots FileSystem.wellFormed_empty hout
    [.none, .none, .refused .alreadyExists] 100 [.trace default] [.trace default, .dumpTrace 1 3] 1 2
    hfew
  -- Each fact below is a run of the log; nothing else may unfold it.
  generalize hstart : (setUp (some (.into "dumps")) "trace.bin" 100
    ⟨.empty, [.none, .none, .refused .alreadyExists]⟩ : Logger Troubled Nat Snapshots) = start
    at houtcome ⊢
  have hwritten : writtenRecords (start.events ([Message.trace default].map Message.call)) =
      [default] := by
    rw [← hstart]
    decide +kernel
  have hcount : snapshotCount (start.events ([Message.trace default].map Message.call)) = 0 := by
    rw [← hstart]
    decide +kernel
  have htotal : snapshotCount (start.events (([.trace default] ++ .dumpTrace 1 2 ::
      [.trace default, .dumpTrace 1 3] : List Message).map Message.call)) = 1 := by
    rw [← hstart]
    decide +kernel
  have hmode : (start.drain [.trace default]).2.writer.mode = .opened := by
    rw [← hstart]
    decide +kernel
  have hcan : Snapshots.CanCopy "trace.bin" "dumps" 0
      (start.drain [.trace default]).2.writer.medium := by
    rw [← hstart]
    exact ⟨by decide +kernel, by decide +kernel⟩
  refine ⟨hmode, hcan, ?_⟩
  dsimp only at houtcome
  rwa [hcount, htotal, hwritten] at houtcome

end Logger

end TraceJournal
