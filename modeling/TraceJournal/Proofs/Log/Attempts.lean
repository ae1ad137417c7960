import TraceJournal.Proofs.Log.Reset

/-!
# One attempt for one choice

Between two accepted choices of a file the log tries to create that file once, for a record that is
offered to it, and reports one failure of the medium. After a failure it leaves the medium alone.
-/
namespace TraceJournal

/-- What takes place after `path` has been chosen. -/
structure OneAttempt (path : String) (events : List Event) : Prop where
  created_isPrefix : events.flatMap Event.created <+: [path]
  created_offered : ∀ e ∈ events, e.created ≠ [] → ∃ r, e.offered? = some r
  failed_once : events.countP Event.failed ≤ 1
  quiet_after : ∀ earlier e later, events = earlier ++ e :: later → e.failed = true →
    ∀ f ∈ later, f.Quiet
  answer_after : ∀ earlier e between f later,
    events = earlier ++ e :: (between ++ f :: later) → e.failed = true →
    ∀ r, f.offered? = some r →
      f.answer = .traced (.ok (if between.any Event.forgets then .unconfigured else .unavailable))

namespace Logger

variable {σ η ξ : Type} [Storage σ η] [Exporter ξ σ] {l : Logger σ η ξ} {calls : List Call}

theorem created_of_spent (hs : l.writer.Spent) (hc : ∀ e ∈ l.events calls, e.configured? = none) :
    ∀ e ∈ l.events calls, e.created = [] := by
  refine (events_induction (P := fun l => l.writer.Spent) ?_ hs hc).1
  intro l e l' hs hp hc
  refine ⟨?_, hp.spent hc hs⟩
  by_cases hne : e.created = []
  · exact hne
  · exact ((hp.of_created hne).2.2.1 hs).elim

theorem flatMap_created_isPrefix {path : String}
    (hn : ∀ name, l.writer.fileName = some name → name = path)
    (hc : ∀ e ∈ l.events calls, e.configured? = none) :
    (l.events calls).flatMap Event.created <+: [path] := by
  induction calls generalizing l with
  | nil => exact List.nil_prefix
  | cons call calls ih =>
    rw [events, List.forall_mem_cons] at hc
    have hp := l.perform_spec call
    rw [events, List.flatMap_cons]
    by_cases hne : (l.event call).created = []
    · rw [hne, List.nil_append]
      refine ih ?_ hc.2
      intro name hname
      rw [hp.fileName_eq hc.1] at hname
      split at hname
      · cases hname
      · exact hn name hname
    · -- The attempt is made now, and there is no other one.
      obtain ⟨⟨name, hname, hcreated⟩, -, -, hs⟩ := hp.of_created hne
      have hrest := List.flatMap_eq_nil_iff.2 (created_of_spent hs hc.2)
      simp [hrest, hcreated, hn name hname]

/-- A log with a fault keeps it, leaves the medium alone and reports no other failure. -/
theorem quiet_of_fault (hq : l.writer.fault ≠ none)
    (hc : ∀ e ∈ l.events calls, e.configured? = none) :
    (∀ e ∈ l.events calls, e.Quiet ∧ e.failed = false) ∧ (l.after calls).writer.fault ≠ none := by
  refine events_induction (P := fun l => l.writer.fault ≠ none) ?_ hq hc
  intro l e l' hq hp hc
  obtain ⟨hquiet, hfailed, -⟩ := hp.of_unready (.inr hq)
  exact ⟨⟨hquiet, hfailed⟩, hp.fault_ne_none hc hq⟩

theorem countP_failed_le (hc : ∀ e ∈ l.events calls, e.configured? = none) :
    (l.events calls).countP Event.failed ≤ 1 := by
  induction calls generalizing l with
  | nil => exact Nat.zero_le 1
  | cons call calls ih =>
    rw [events, List.forall_mem_cons] at hc
    rw [events, List.countP_cons]
    have hih := ih hc.2
    split
    · next hf =>
      have hq := ((l.perform_spec call).of_failed hf).2
      have hrest : ((l.perform call).2.events calls).countP Event.failed = 0 := by
        rw [List.countP_eq_zero]
        intro e he
        simp [((quiet_of_fault hq hc.2).1 e he).2]
      omega
    · omega

theorem fileName_after (hc : ∀ e ∈ l.events calls, e.configured? = none) :
    (l.after calls).writer.fileName =
      if (l.events calls).any Event.forgets then none else l.writer.fileName := by
  induction calls generalizing l with
  | nil => rfl
  | cons call calls ih =>
    rw [events, List.forall_mem_cons] at hc
    rw [after_cons, ih hc.2, (l.perform_spec call).fileName_eq hc.1, events, List.any_cons]
    cases (l.event call).forgets <;> simp

/-- A run in which no file is chosen is one attempt to use the file chosen before it. -/
theorem oneAttempt_events {path : String} (hn : l.writer.fileName = some path)
    (hc : ∀ e ∈ l.events calls, e.configured? = none) : OneAttempt path (l.events calls) where
  created_isPrefix := flatMap_created_isPrefix (by simp [hn]) hc
  created_offered := by
    refine (events_induction (P := fun _ => True) (R := fun _ => True) ?_ trivial
      fun _ _ => trivial).1
    intro l e l' _ hp _
    exact ⟨fun hne => (hp.of_created hne).2.1, trivial⟩
  failed_once := countP_failed_le hc
  quiet_after := by
    intro earlier e later h hf
    obtain ⟨before, call, rest, -, -, rfl, rfl⟩ := events_eq_append_cons h
    rw [h, List.forall_mem_append, List.forall_mem_cons] at hc
    have hq := (((l.after before).perform_spec call).of_failed hf).2
    exact fun f hmem => ((quiet_of_fault hq hc.2.2).1 f hmem).1
  answer_after := by
    intro earlier e between f later h hf r hr
    obtain ⟨before, call, rest, -, -, rfl, hrest⟩ := events_eq_append_cons h
    obtain ⟨meanwhile, next, rest, -, rfl, rfl, -⟩ := events_eq_append_cons hrest
    rw [h, List.forall_mem_append, List.forall_mem_cons, List.forall_mem_append] at hc
    -- The log that has just failed has its name still, and a fault from now on.
    obtain ⟨hname, hq⟩ := ((l.after before).perform_spec call).of_failed hf
    have hafter := fileName_after hc.2.2.1
    have hfault := (quiet_of_fault hq hc.2.2.1).2
    have ha := (perform_spec next _).of_unready (.inr hfault)
    rw [ha.2.2 r hr, hafter]
    cases (events meanwhile ((l.after before).perform call).2).any Event.forgets with
    | false => simp [hname]
    | true => simp

/-- A new log creates no file before one has been chosen. Once `path` has been chosen, the log
tries to create that file at most once, for a record that is offered to it, and reports at most one
failure; after a failure it leaves the medium alone and says that the file is unavailable, or that
there is none if it has been closed or another choice was refused because of its name. -/
theorem one_attempt_for_one_choice :
    (∀ (medium : σ) (exporter : Option ξ) (calls : List Call),
      let l : Logger σ η ξ := (new medium).setExporter exporter
      (∀ e ∈ l.events calls, e.configured? = none) → ∀ e ∈ l.events calls, e.created = []) ∧
    ∀ (l : Logger σ η ξ) (choice : Call) (path : String) (calls : List Call),
      (l.event choice).configured? = some path →
      (∀ e ∈ (l.perform choice).2.events calls, e.configured? = none) →
      (l.event choice).requests = [] ∧ OneAttempt path ((l.perform choice).2.events calls) := by
  refine ⟨?_, ?_⟩
  · intro medium exporter calls l hc
    exact created_of_spent (.inl rfl) hc
  · intro l choice path calls hpath hc
    have hp := l.perform_spec choice
    exact ⟨hp.requests_of_configured hpath, oneAttempt_events (hp.fileName_of_configured hpath) hc⟩

/-- A medium that refuses to create. -/
theorem one_attempt_on_refusing_medium :
    let l : Logger Memory String (List ExportRequest) :=
      (new { Memory.empty with failOpen := true }).setExporter (some [])
    (∀ e ∈ l.events [.log default], e.created = []) ∧
      (l.event (.configure "trace.bin")).configured? = some "trace.bin" ∧
      OneAttempt "trace.bin"
        ((l.perform (.configure "trace.bin")).2.events [.log default, .log default]) := by
  intro l
  refine ⟨?_, rfl, ?_⟩
  · refine one_attempt_for_one_choice.1 _ _ _ ?_
    simp [events, event, eventOf, Event.configured?, Call.choice?]
  · refine (one_attempt_for_one_choice.2 l (.configure "trace.bin") _ _ rfl ?_).2
    simp [events, event, eventOf, Event.configured?, Call.choice?]

/-- After a failure the file can become unconfigured although none has been closed: a choice that
is refused because of its name takes the name away. -/
theorem unconfigured_without_closing :
    let l : Logger Memory String (List ExportRequest) :=
      (new { Memory.empty with failOpen := true }).after [.setLogFile "trace.bin" 100]
    ∃ e g f, l.events [.log default, .setLogFile "" 0, .log default] = [e, g, f] ∧
      e.failed = true ∧ g.call ≠ .closeFile ∧ g.configured? = none ∧
      f.offered? = some default ∧ f.answer = .traced (.ok .unconfigured) := by
  intro l
  exact ⟨_, _, _, rfl, rfl, by decide, rfl, rfl, rfl⟩

end Logger

end TraceJournal
