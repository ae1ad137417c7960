import TraceJournal.CommandLine.Session

/-!
# What jobs do

A job that is run from a session ends with a result and in a session. One that follows another starts
where that one ended, unless it failed.
-/
namespace TraceJournal

/-- The directory that a file is to lie in, or no text if it is to lie where the path starts. -/
def Path.outer (path : String) : String := (parentText? path).getD ""

namespace CommandLine.Job

variable {α β : Type} {s : Session} {path : String}

/-- How a job ends that is run from a session. -/
def on (job : Job α) (s : Session) : Except Failure α × Session := job.run.run s

theorem on_bind (job : Job α) (next : α → Job β) :
    (job >>= next).on s =
      match job.on s with
      | (.ok a, after) => (next a).on after
      | (.error f, after) => (.error f, after) := by
  simp only [on, ExceptT.run_bind, StateT.run_bind]
  change (match job.run.run s with | (r, after) => _) = _
  rcases job.run.run s with ⟨_ | a, after⟩ <;> rfl

theorem on_bind_ok {job : Job α} {next : α → Job β} {a : α} {after : Session}
    (h : job.on s = (.ok a, after)) : (job >>= next).on s = (next a).on after := by
  rw [on_bind, h]

theorem on_liftExcept (result : Except Failure α) :
    (liftExcept result : Job α).on s = (result, s) := by
  cases result <;> rfl

theorem on_ask (question : FileSystem → Except Failure α) :
    (ask question).on s = (question s.disk, s) := by
  change (liftExcept (question s.disk) : Job α).on s = _
  exact on_liftExcept _

theorem on_change (step : FileSystem → Except Failure FileSystem) :
    (change step).on s =
      match step s.disk with
      | .ok disk => (.ok (), { s with disk })
      | .error f => (.error f, s) := by
  rw [change, on_bind, on_ask]
  cases step s.disk <;> rfl

theorem on_change_ok {step : FileSystem → Except Failure FileSystem} {disk : FileSystem}
    (h : step s.disk = .ok disk) : (change step).on s = (.ok (), { s with disk }) := by
  rw [on_change, h]

/-- The directory of a file is there afterwards, or the job fails; what could be created stays. -/
theorem on_prepareParent : (prepareParent path).on s =
    (during .io s!"creating parent directory {Path.outer path}"
        (s.disk.ensureDirectory (Path.outer path)).1,
      { s with disk := (s.disk.ensureDirectory (Path.outer path)).2 }) := by
  rw [prepareParent, ← Path.outer]
  generalize Path.outer path = dir
  by_cases hdir : dir.isEmpty = true
  · rw [if_pos hdir, String.isEmpty_iff.1 hdir]
    rfl
  · rw [if_neg hdir]
    change (liftExcept (during .io _ (s.disk.ensureDirectory dir).1) : Job Unit).on _ = _
    exact on_liftExcept _

theorem outcome_eq (job : Job Unit) (disk : FileSystem) : job.outcome disk =
    match job.on ⟨disk, []⟩ with
    | (.ok (), session) => ⟨.success, session.output, session.disk⟩
    | (.error failure, session) => ⟨.failed failure, session.output, session.disk⟩ := rfl

theorem disk_outcome (job : Job Unit) (disk : FileSystem) :
    (job.outcome disk).disk = (job.on ⟨disk, []⟩).2.disk := by
  rw [outcome_eq]
  rcases job.on ⟨disk, []⟩ with ⟨_ | _, session⟩ <;> rfl

end CommandLine.Job

end TraceJournal
