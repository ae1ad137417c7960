import TraceJournal.CommandLine.Run
import TraceJournal.Proofs.CommandLine.Session
import TraceJournal.Proofs.Log.Snapshot
import TraceJournal.Proofs.Message.Arrivals
import TraceJournal.Proofs.Script.Streaming
import TraceJournal.Proofs.Storage.Confined

/-!
# Replays that leave things alone

A replay reads its settings and its whole script before it changes anything, so that one which cannot
start leaves the disk as it found it. The log is made by the first record that it is to hold, so that a
script without such a record leaves an older log alone.
-/
namespace TraceJournal

namespace Logger

variable {σ η : Type} [Storage σ η] [Directories σ] {l : Logger σ η Snapshots}

/-- A dump of a log that is not open does nothing. -/
theorem perform_dumpTrace_of_closed (hf : l.writer.file = none) :
    (l.perform .dumpTrace).2 = l := by
  cases hx : l.exporter with
  | none => simp [perform, dumpTrace, hx]
  | some exporter =>
    have hmode : l.exportRequest.mode = .closed := by simp [exportRequest, Writer.mode, hf]
    have hd := Snapshots.deliver_closed hmode exporter l.writer.medium
    rw [perform, dumpTrace_of_deliver hx hd, ← hx]

/-- As long as no record arrives that could be written, a log that is not open stays so, and its medium
stays as it is. -/
theorem drain_of_unoffered {messages : List Message} (hf : l.writer.file = none)
    (h : ∀ r, (true, r) ∈ Message.arrivals l.writer.enabled messages → ¬ r.Encodable) :
    (l.drain messages).2.writer.file = none ∧
      (l.drain messages).2.writer.medium = l.writer.medium := by
  rw [drain_after]
  induction messages generalizing l with
  | nil => exact ⟨hf, rfl⟩
  | cons message messages ih =>
    rw [List.map_cons, after_cons]
    cases message with
    | trace r =>
      have hsame : (l.perform (.log r)).2 = l := by
        cases he : l.writer.enabled with
        | false => rw [perform_log_gated he]
        | true =>
          have hr : ¬ r.Encodable := h r (by rw [he]; exact List.mem_cons_self)
          rw [perform_log_refused he hr]
      rw [Message.call, hsame]
      exact ih hf fun other hmem => h other (List.mem_cons_of_mem _ hmem)
    | enableTrace opcode seq enable => exact ih (l := l.setEnabled enable) hf h
    | dumpTrace opcode seq =>
      rw [Message.call, perform_dumpTrace_of_closed hf]
      exact ih hf h

theorem closeFile_drain_of_unoffered {messages : List Message} (hf : l.writer.file = none)
    (h : ∀ r, (true, r) ∈ Message.arrivals l.writer.enabled messages → ¬ r.Encodable) :
    (l.drain messages).2.closeFile = (.ok (), (l.drain messages).2) ∧
      (l.drain messages).2.writer.medium = l.writer.medium := by
  obtain ⟨hclosed, hmedium⟩ := drain_of_unoffered hf h
  exact ⟨by simp [closeFile, Writer.close, hclosed], hmedium⟩

end Logger

namespace CommandLine

variable {r : Replay} {disk : FileSystem} {s : Session} {config : Config} {log : String}
  {script : Script}

/-- The settings that the command line is put in front of. -/
def Replay.given (r : Replay) (disk : FileSystem) : Except Failure Config :=
  match r.config with
  | some path => Config.load path disk
  | none => .ok Config.initial

/-- Whether a replay can start, with these settings, this log and this script. -/
structure Replay.Starts (r : Replay) (disk : FileSystem) (config : Config) (log : String)
    (script : Script) : Prop where
  adjusted : ∃ given, r.given disk = .ok given ∧ config = r.adjust given
  named : config.fileName = some log
  usable : Writer.nameFault? log = none
  loaded : Script.load r.script disk = .ok script

/-- A job that begins with the settings of a replay fails with them, or goes on with them. -/
theorem on_given (job : Job Unit) {next : Config → Job Unit}
    (hjob : job = match r.config with
      | some path => Job.ask (Config.load path) >>= next
      | none => pure Config.initial >>= next) :
    job.on s = match r.given s.disk with
      | .ok given => (next given).on s
      | .error f => (.error f, s) := by
  rw [hjob, Replay.given]
  cases r.config with
  | none => rfl
  | some path =>
    dsimp only
    rw [Job.on_bind, Job.on_ask]
    cases Config.load path s.disk <;> rfl

/-- A log that is not open is given the file of the settings, unless its name cannot be used. -/
theorem apply_of_closed {l : Logger FileSystem Nat Snapshots} (hf : l.writer.file = none)
    (hn : config.fileName = some log) :
    (∃ e, Writer.nameFault? log = some e ∧ (config.apply l).1 = .error e) ∨
      Writer.nameFault? log = none ∧ (config.apply l).1 = .ok () ∧
        (config.apply l).2.writer.file = none ∧
        (config.apply l).2.writer.medium = l.writer.medium ∧
        (config.apply l).2.writer.enabled = config.enabled := by
  have happly : config.apply l = (l.setEnabled config.enabled).setLogFile log config.maxSize := by
    simp [Config.apply, hn]
  have hspec := Writer.setLogFile_spec log config.maxSize (l.setEnabled config.enabled).writer
  rw [happly, Logger.setLogFile]
  cases hset : (l.setEnabled config.enabled).writer.setLogFile log config.maxSize with
  | mk result w =>
    rw [hset] at hspec
    cases hspec with
    | alreadyOpen hheld => cases hf.symm.trans hheld
    | refused _ he => exact .inl ⟨_, he, rfl⟩
    | accepted _ he => exact .inr ⟨he, rfl, hf, rfl, rfl⟩

/-- A replay fails before it changes anything, or it can start. If no record can be written then, all
that it changes is the summary. -/
theorem on_replay (r : Replay) (s : Session) :
    (∃ f, (replay r).on s = (.error f, s)) ∨
      ∃ config log script, r.Starts s.disk config log script ∧
        ((∀ record, (true, record) ∈ Message.arrivals config.enabled script.messages →
          ¬ record.Encodable) →
        ∃ report line, (replay r).on s =
          (match r.summary with
          | none => Job.print line
          | some out => do
            Job.prepareParent out
            Job.change fun disk => during .io s!"create {out}" (disk.put out report)
            Job.print line).on s) := by
  rw [on_given (r := r) (replay r) rfl]
  cases hg : r.given s.disk with
  | error f => exact .inl ⟨f, rfl⟩
  | ok given =>
    dsimp only
    cases hn : (r.adjust given).fileName with
    | none => exact .inl ⟨_, rfl⟩
    | some log =>
      dsimp only
      have hget : (get : Job Session).on s = (.ok s, s) := rfl
      rw [Job.on_bind_ok hget]
      have happly := apply_of_closed
        (l := (Logger.new s.disk).setExporter (r.snapshots.map Snapshots.into)) rfl hn
      -- From here on nothing matters of the log but what has just been said of it.
      generalize (r.adjust given).apply ((Logger.new s.disk).setExporter _) = configured at happly ⊢
      rcases configured with ⟨result, logger⟩
      dsimp only at happly ⊢
      rw [Job.on_bind, Job.on_liftExcept]
      rcases happly with ⟨e, -, rfl⟩ | ⟨husable, rfl, hf, hmedium, henabled⟩
      · exact .inl ⟨_, rfl⟩
      · dsimp only [during, Except.mapError]
        rw [Job.on_bind, Job.on_ask]
        cases hload : Script.load r.script s.disk with
        | error f => exact .inl ⟨_, rfl⟩
        | ok script =>
          refine .inr ⟨r.adjust given, log, script, ⟨⟨given, hg, rfl⟩, hn, husable, hload⟩, ?_⟩
          intro hquiet
          dsimp only [doing, Except.mapError]
          rw [← henabled] at hquiet
          obtain ⟨hclose, hsame⟩ := Logger.closeFile_drain_of_unoffered hf hquiet
          generalize logger.drain script.messages = drained at hclose hsame ⊢
          obtain ⟨summary, idle⟩ := drained
          dsimp only at hclose hsame ⊢
          rw [hclose]
          dsimp only
          rw [hsame, hmedium]
          exact ⟨Json.pretty summary.toValue, _, rfl⟩

open ScriptFormat (extension? ofExtension?)

/-- What keeps a replay from starting. -/
inductive Replay.Barred (r : Replay) (disk : FileSystem) : Prop
  /-- The configuration cannot be read. -/
  | unconfigured {path : String} {f : Failure} (hpath : r.config = some path)
      (hload : Config.load path disk = .error f)
  /-- No log is named. -/
  | unnamed {given : Config} (hgiven : r.given disk = .ok given)
      (hn : (r.adjust given).fileName = none)
  /-- The name of the log is empty or too long. -/
  | misnamed {given : Config} {log : String} (hgiven : r.given disk = .ok given)
      (hn : (r.adjust given).fileName = some log)
      (hname : log.utf8ByteSize = 0 ∨ maxNameLength < log.utf8ByteSize)
  /-- The extension of the script is none that can be read. -/
  | unsupported (hformat : extension? r.script >>= ofExtension? = none)
  /-- There is no such script file. -/
  | missing {e : IoError} (hfetch : disk.fetch r.script = .error e)
  /-- The script file is no script. -/
  | malformed {format : ScriptFormat} {bytes : List UInt8} {f : Failure}
      (hformat : extension? r.script >>= ofExtension? = some format)
      (hfetch : disk.fetch r.script = .ok bytes) (hbytes : Script.ofBytes format bytes = .error f)
  /-- A line of the script file is no message, wherever it is. -/
  | badLine {bytes : List UInt8} {f : Failure}
      (hformat : extension? r.script >>= ofExtension? = some .lines)
      (hfetch : disk.fetch r.script = .ok bytes) (hline : .error f ∈ MessageLines.read bytes)

theorem Replay.Barred.not_starts (hbarred : r.Barred disk) : ¬ r.Starts disk config log script := by
  rintro ⟨⟨given, hgiven, rfl⟩, hn, husable, hload⟩
  obtain ⟨format, bytes, hformat, hfetch, hbytes⟩ := Script.of_load_eq_ok hload
  cases hbarred with
  | unconfigured hpath herror => simp [Replay.given, hpath, herror] at hgiven
  | unnamed hgiven' hnone =>
    cases hgiven.symm.trans hgiven'
    cases hn.symm.trans hnone
  | misnamed hgiven' hn' hname =>
    cases hgiven.symm.trans hgiven'
    cases hn.symm.trans hn'
    have hsize := Writer.nameFault?_eq_none_iff.1 husable
    omega
  | unsupported hnone => cases hformat.symm.trans hnone
  | missing herror => cases hfetch.symm.trans herror
  | malformed hformat' hfetch' herror =>
    cases hformat.symm.trans hformat'
    cases hfetch.symm.trans hfetch'
    cases hbytes.symm.trans herror
  | badLine hformat' hfetch' hline =>
    cases hformat.symm.trans hformat'
    cases hfetch.symm.trans hfetch'
    obtain ⟨messages, hread, -⟩ := Script.ofBytes_lines_eq_ok_iff.1 hbytes
    simp [hread] at hline

/-- Writing a summary touches no other file, whether it succeeds or not. -/
theorem confined_summary (out : String) (report line : List UInt8) (hwf : s.disk.WellFormed) :
    FileSystem.Confined (s.disk.place out) s.disk
      ((do
        Job.prepareParent out
        Job.change fun disk => during .io s!"create {out}" (disk.put out report)
        Job.print line : Job Unit).on s).2.disk := by
  have hmade : FileSystem.Confined (s.disk.place out) s.disk
      (s.disk.ensureDirectory (Path.outer out)).2 := FileSystem.confined_ensureDirectory _ hwf
  rw [Job.on_bind, Job.on_prepareParent]
  generalize s.disk.ensureDirectory (Path.outer out) = prepared at hmade ⊢
  obtain ⟨result, made⟩ := prepared
  cases result with
  | error e => exact hmade
  | ok =>
    dsimp only [during, Except.mapError]
    rw [Job.on_bind, Job.on_change]
    cases hput : made.put out report with
    | error e => exact hmade
    | ok after =>
      have hafter := FileSystem.confined_put hmade.wellFormed hput
      rw [hmade.place_eq] at hafter
      exact hmade.trans hafter

/-- A replay that cannot start fails, prints nothing and leaves the disk as it is, whatever keeps it from
starting. One that can start leaves the file of the log alone, be it there or not, if no record arrives
while the gate is open that is short enough to be written. Where it writes a summary, that must not go to
the place of the log, and the disk has to be well-formed, so that the file of the log has no other
place. -/
theorem run_replay {arguments : List String}
    (harguments : Invocation.read? arguments = some (.run r)) (disk : FileSystem) :
    (r.Barred disk → ∃ f, run arguments disk = ⟨.failed f, [], disk⟩) ∧
    ∀ given log script, r.given disk = .ok given → (r.adjust given).fileName = some log →
      Script.load r.script disk = .ok script →
      (∀ record, (true, record) ∈ Message.arrivals (r.adjust given).enabled script.messages →
        maxPayload < record.payload.length) →
      (r.summary = none → (run arguments disk).disk = disk) ∧
      (disk.WellFormed → (∀ out, r.summary = some out → disk.place out ≠ disk.place log) →
        (run arguments disk).disk.fileAt (disk.place log) = disk.fileAt (disk.place log) ∧
        ∀ bytes, disk.fetch log = .ok bytes → (run arguments disk).disk.fetch log = .ok bytes) := by
  have hrun : run arguments disk = (replay r).outcome disk := by
    rw [run, harguments]
    rfl
  rw [hrun, Job.disk_outcome]
  rcases on_replay r ⟨disk, []⟩ with ⟨f, hfailed⟩ | ⟨config, log, script, hstarts, hquiet⟩
  · rw [Job.outcome_eq, hfailed]
    exact ⟨fun _ => ⟨f, rfl⟩, fun _ _ _ _ _ _ _ => ⟨fun _ => rfl, fun _ _ => ⟨rfl, fun _ => id⟩⟩⟩
  · refine ⟨fun hbarred => (hbarred.not_starts hstarts).elim, ?_⟩
    intro given log' script' hgiven hn hload hlong
    obtain ⟨⟨given', hgiven', rfl⟩, hn', -, hload'⟩ := hstarts
    cases hgiven.symm.trans hgiven'
    cases hn.symm.trans hn'
    cases hload.symm.trans hload'
    obtain ⟨report, line, hon⟩ := hquiet fun record hmem => Nat.not_le.2 (hlong record hmem)
    rw [hon]
    cases hsummary : r.summary with
    | none => exact ⟨fun _ => rfl, fun _ _ => ⟨rfl, fun _ => id⟩⟩
    | some out =>
      refine ⟨nofun, fun hwf hapart => ?_⟩
      have hne : disk.place log ≠ disk.place out := (hapart out rfl).symm
      have hconfined := confined_summary (s := ⟨disk, []⟩) out report line hwf
      exact ⟨hconfined.fileAt_eq hne, fun bytes hfetch => hconfined.fetch hfetch hne⟩

/-- A script that shuts the gate before its only record. -/
def gatedMessages : List Message := [.enableTrace enableTraceOpcode 1 false, .trace default]

/-- A disk with a log of an earlier run and that script. -/
def gatedDisk : FileSystem :=
  ⟨["home"], [(["home", "a.bin"], .file 0), (["home", "s.jsonl"], .file 1)],
    [(0, .ofList [1, 2, 3]), (1, .ofList (MessageLines.write gatedMessages))], []⟩

theorem wellFormed_gatedDisk : gatedDisk.WellFormed := by
  let first : FileSystem :=
    ⟨["home"], [(["home", "a.bin"], .file 0)], [(0, .ofList [1, 2, 3])], []⟩
  have hlog : FileSystem.empty.put "a.bin" [1, 2, 3] = .ok first := rfl
  have hscript : first.put "s.jsonl" (MessageLines.write gatedMessages) = .ok gatedDisk := rfl
  have hfirst := (FileSystem.keeps_put FileSystem.wellFormed_empty hlog).1.wellFormed
  exact (FileSystem.keeps_put hfirst hscript).1.wellFormed

theorem load_gatedDisk :
    Script.load "s.jsonl" gatedDisk = .ok (.ofMessages gatedMessages) := by
  have hext : extension? "s.jsonl" = some "jsonl" :=
    @Script.extension?_of_letters _ "jsonl" _ (by decide) (by decide)
  have hfetch : gatedDisk.fetch "s.jsonl" = .ok (MessageLines.write gatedMessages) := by
    simp [show gatedDisk.fetch "s.jsonl" = .ok (Contents.ofList _).toList from rfl]
  rw [Script.load_of_fetch hext rfl hfetch]
  exact Script.ofBytes_lines (.ofMessages gatedMessages)

theorem Invocation.read?_run {arguments : List String} {settings : Settings}
    (h : (Flag.read runFlags [] arguments).toOption = some settings) :
    Invocation.read? ("run" :: arguments) = ofRun settings := by
  rw [Invocation.read?, ofFlags]
  cases hread : Flag.read runFlags [] arguments with
  | error e => simp [hread, Except.toOption] at h
  | ok found =>
    rw [hread] at h
    cases h
    rfl

/-- The earlier log stays if the extension of the script cannot be read, and if the record of the script
comes behind the shut gate; in the second run a summary is written. -/
theorem run_replay_gated :
    (∃ f, run ["run", "--script", "s.yaml", "--log-file", "a.bin"] gatedDisk =
      ⟨.failed f, [], gatedDisk⟩) ∧
    (run ["run", "--script", "s.jsonl", "--log-file", "a.bin", "--summary", "sum.json"]
      gatedDisk).disk.fetch "a.bin" = .ok [1, 2, 3] := by
  have hyaml : Invocation.read? ["run", "--script", "s.yaml", "--log-file", "a.bin"] =
      some (.run ⟨"s.yaml", none, some "a.bin", none, false, none, none⟩) :=
    @Invocation.read?_run _ [("script", "s.yaml"), ("log-file", "a.bin")] (by decide +kernel)
  have hjsonl : Invocation.read?
      ["run", "--script", "s.jsonl", "--log-file", "a.bin", "--summary", "sum.json"] =
      some (.run ⟨"s.jsonl", none, some "a.bin", none, false, none, some "sum.json"⟩) :=
    @Invocation.read?_run _ [("script", "s.jsonl"), ("log-file", "a.bin"), ("summary", "sum.json")]
      (by decide +kernel)
  have hgiven : Replay.given ⟨"s.jsonl", none, some "a.bin", none, false, none, some "sum.json"⟩
      gatedDisk = .ok Config.initial := rfl
  refine ⟨(run_replay hyaml gatedDisk).1 (.unsupported ?_), ?_⟩
  · have hext : extension? "s.yaml" = some "yaml" :=
      @Script.extension?_of_letters _ "yaml" _ (by decide) (by decide)
    rw [hext]
    rfl
  · refine ((run_replay hjsonl gatedDisk).2 _ _ _ hgiven rfl load_gatedDisk ?_).2
      wellFormed_gatedDisk ?_ |>.2 [1, 2, 3] rfl
    · intro record hmem
      simp [Replay.adjust, Config.initial, gatedMessages, Script.ofMessages, Message.arrivals] at hmem
    · rintro out ⟨⟩
      decide

end CommandLine

end TraceJournal
