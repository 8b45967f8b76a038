import Galley.Compile.Default
import Galley.Program.Script
import Galley.Proofs.Compile.Course

/-!
# Attempts

Every stage takes one of its exits, and an attempt takes a course. `meets_attempt` is the main
result: it says which story a course leaves and what the attempt is like at its end, the tree
aside.
-/

namespace Galley

namespace Compilation

variable {c : Compilation} {a : Attempt}

/-! ### Collaborators -/

theorem meets_enter {phase : Phase} {Q : Unit → List Event → Attempt → Prop}
    (h : Q () [.entered phase] { a with phase }) : Meets (c.enter phase) a Q := by
  refine meets_bind (meets_current (meets_bind (meets_log (meets_bind (meets_update ?_)))))
  exact meets_record rfl h

private theorem meets_accept {α : Type} {role : Role} {r : Except Stop α}
    {Q : Except Stop α → List Event → Attempt → Prop}
    (h : Q r (match r with | .ok _ => [] | .error stop => [.raised role stop]) a) :
    Meets (Stage.accept role r).run a Q := by
  cases r with
  | ok x => exact meets_stage_pure h
  | error stop => exact meets_lift_bind (meets_record rfl (meets_throw h))

/-- A collaborator changes the tree, and what it raises is told. -/
private theorem meets_call {α : Type} {role : Role} {w : ExceptT Stop (Work Note Tree) α}
    {Q : Except Stop α → List Event → Attempt → Prop}
    (ok : ∀ x t, (∃ past, (w.run past a.tree).result = .ok x) → Q (.ok x) [] { a with tree := t })
    (error : ∀ stop t, (∃ past, (w.run past a.tree).result = .error stop) →
      Q (.error stop) [.raised role stop] { a with tree := t }) :
    Meets (Stage.call role w).run a Q := by
  refine meets_stage_bind (meets_lift (meets_chore fun past => meets_accept ?_))
  cases hr : (w.run past a.tree).result with
  | ok x => exact ok x _ ⟨past, hr⟩
  | error stop => exact error stop _ ⟨past, hr⟩

/-! ### Validating -/

private theorem meets_readDirectives {Q : Directives → List Event → Attempt → Prop}
    (h : Q (c.directivesIn a.tree) [] a) : Meets c.readDirectives a Q := by
  refine meets_bind (meets_current ?_)
  rw [directivesIn] at h
  split
  · next hr => exact meets_pure (by rwa [hr] at h)
  · next hr => exact meets_bind (meets_log (meets_pure (by rwa [hr] at h)))

private theorem rejection?_eq_none_iff {t : Tree} : c.rejection? t = none ↔ c.Accepts t := by
  rw [rejection?, Accepts]
  cases c.hasBlankName <;> cases t.contains c.here c.target <;> simp

private theorem meets_checkTarget {Q : Except Stop Unit → List Event → Attempt → Prop}
    (accepted : c.Accepts a.tree → Q (.ok ()) [] a)
    (rejected : ¬ c.Accepts a.tree → ∀ message, Q (.error (.invalidInput message)) [] a) :
    Meets c.checkTarget.run a Q := by
  refine meets_lift_bind (meets_current ?_)
  cases hr : c.rejection? a.tree with
  | none => exact meets_stage_pure (accepted (rejection?_eq_none_iff.mp hr))
  | some message =>
    refine meets_throw (rejected (fun h => ?_) message)
    rw [rejection?_eq_none_iff.mpr h] at hr
    cases hr

/-- The program is chosen, or the exit is one of the later exits of validating. -/
private theorem meets_chooseProgram {Q : Except Stop Path → List Event → Attempt → Prop}
    (accepted : c.Accepts a.tree)
    (chosen : ∀ program, c.Validating a.tree (.ok (c.directivesIn a.tree, program))
      [.entered .validating] → Q (.ok program) [] a)
    (stopped : ∀ stop es, c.Validating a.tree (.error stop) (.entered .validating :: es) →
      Q (.error stop) es a) :
    Meets (c.chooseProgram (c.directivesIn a.tree)).run a Q := by
  rw [chooseProgram]
  cases hp : c.programIn a.tree with
  | error problem =>
    rw [show TexProgram.supportedName (c.directivesIn a.tree) c.settings = _ from hp]
    exact meets_throw (stopped _ _ (.unsupported accepted hp))
  | ok name =>
    rw [show TexProgram.supportedName (c.directivesIn a.tree) c.settings = _ from hp]
    refine meets_lift_bind (meets_current (meets_stage_bind (meets_accept ?_)))
    cases hw : c.which a.tree name with
    | error stop => exact stopped _ _ (.raised accepted hp hw)
    | ok found =>
      cases found with
      | none => exact meets_throw (stopped _ _ (.missing accepted hp hw))
      | some found =>
        refine meets_lift_bind (meets_log (meets_stage_pure ?_))
        exact chosen _ (.chosen accepted hp hw)

/-- The cleanup of an attempt once its document is validated. -/
def cleanupAfter (c : Compilation) (a : Attempt) : Cleanup :=
  if c.settings.cleanOutput = true ∧ c.Accepts a.tree then a.cleanup.start c.here c.target
  else a.cleanup

theorem meets_validate : Meets c.validate.run a fun r es a' =>
    c.Validating a.tree r es ∧
      a' = { a with phase := .validating, cleanup := c.cleanupAfter a } := by
  -- the cleanup may have been told of the document, which the rest does not look at
  have chosen : ∀ cleanup, c.Accepts a.tree →
      Meets (do
        let directives ← liftM c.readDirectives
        let program ← c.chooseProgram directives
        return (directives, program) : Stage _).run { a with phase := .validating, cleanup }
      fun r es a' => c.Validating a.tree r (.entered .validating :: es) ∧
        a' = { a with phase := .validating, cleanup } := by
    intro cleanup accepted
    refine meets_lift_bind (meets_readDirectives (meets_stage_bind ?_))
    refine meets_chooseProgram accepted (fun program hv => ?_) fun stop es hv => ?_
    · exact meets_stage_pure ⟨hv, rfl⟩
    · exact ⟨hv, rfl⟩
  refine meets_lift_bind (meets_enter (meets_stage_bind ?_))
  refine meets_checkTarget (fun accepted => ?_) fun rejected message => ?_
  · by_cases hc : c.settings.cleanOutput = true
    · have hf : c.cleanupAfter a = a.cleanup.start c.here c.target := if_pos ⟨hc, accepted⟩
      rw [hf]
      simp only [if_pos hc]
      exact meets_lift_bind (meets_update (chosen _ accepted))
    · have hf : c.cleanupAfter a = a.cleanup := if_neg fun h => hc h.1
      rw [hf]
      simp only [if_neg hc]
      exact chosen _ accepted
  · exact ⟨.rejected rejected message, by simp [cleanupAfter, rejected]⟩

/-! ### Weaving and typesetting -/

private theorem meets_weave {directives : Directives} (h : c.isLiterate = true) :
    Meets (c.weave directives).run a fun r es a' =>
      c.Weaving r es ∧ ∃ t, a' = { a with phase := .weaving, tree := t } := by
  refine meets_lift_bind (meets_enter (meets_stage_bind (meets_call ?_ ?_)))
  · rintro result t ⟨past, hs⟩
    refine meets_lift_bind (meets_record rfl ?_)
    cases result with
    | woven tex concordance =>
      exact meets_stage_pure ⟨.woven h tex concordance ⟨directives, past, _, hs⟩, t, rfl⟩
    | failed reason => exact meets_throw ⟨.failed h reason, t, rfl⟩
  · rintro stop t ⟨past, hs⟩
    exact ⟨.raised h ⟨directives, past, _, hs⟩, t, rfl⟩

/-- Weaving is passed over for a document that is not literate. -/
theorem meets_weaveLiterate {directives : Directives} :
    Meets (c.weaveLiterate directives).run a fun r es a' =>
      c.Weaving r es ∧ ∃ phase t, a' = { a with phase, tree := t } := by
  rw [weaveLiterate]
  cases h : c.isLiterate with
  | true =>
    refine (meets_weave h).imp ?_
    rintro r es a' ⟨hw, t, rfl⟩
    exact ⟨hw, _, t, rfl⟩
  | false => exact meets_stage_pure ⟨.plain h, _, _, rfl⟩

theorem meets_probeVersion {program : Path} : Meets (c.probeVersion program).run a fun r es a' =>
    c.Probing (r.map fun _ => ()) es ∧ ∃ t, a' = { a with tree := t } := by
  refine meets_stage_bind (meets_lift (meets_chore fun past => ?_))
  cases hr : ((c.probe program).run past a.tree).result with
  | ok version => exact meets_lift_bind (meets_log (meets_stage_pure ⟨.known, _, rfl⟩))
  | error stop =>
    refine meets_lift_bind (meets_record rfl ?_)
    cases stop with
    | version message =>
      refine meets_lift_bind (meets_log (meets_lift_bind (meets_record rfl ?_)))
      exact meets_stage_pure ⟨.unknown message, _, rfl⟩
    -- only an unknown version is let pass
    | _ => exact meets_throw ⟨.raised (by simp) ⟨program, past, _, hr⟩, _, rfl⟩

private theorem meets_drive {tex : Path} {options : TexOptions} :
    Meets (c.drive tex options).run a fun r es a' => ∃ r' : Except Stop ToolOutput,
      r = r'.map (fun _ => ()) ∧ c.Driving r' es ∧
        ∃ t, a' = { a with tree := t, result := r'.toOption.or a.result } := by
  refine meets_lift_bind (meets_current (meets_stage_bind (meets_accept ?_)))
  cases hd : c.driver a.tree with
  | error stop => exact ⟨.error stop, rfl, .unchosen ⟨_, hd⟩, _, rfl⟩
  | ok driver =>
    refine meets_lift_bind (meets_log (meets_lift_bind (meets_record rfl ?_)))
    refine meets_stage_bind (meets_call (fun result t _ => ?_) ?_)
    · refine meets_lift_bind (meets_record rfl (meets_lift (meets_update ?_)))
      exact ⟨.ok result, rfl, .drove result, t, rfl⟩
    · rintro stop t ⟨past, hs⟩
      exact ⟨.error stop, rfl, .raised ⟨_, driver, hd, tex, options, past, _, hs⟩, t, rfl⟩

/-- Typesetting is reached, and it stops at the probe or at the driver, or the toolchain leaves
something. -/
private theorem meets_typeset {program : Path} {Q : Except Stop Path → List Event → Attempt → Prop}
    (probing : ∀ stop es t, c.Probing (.error stop) es → Q (.error stop)
      (.entered .typesetting :: es)
      { a with tree := t, phase := .typesetting, typesetting := true })
    (driving : ∀ stop es ds t, c.Probing (.ok ()) es → c.Driving (.error stop) ds →
      Q (.error stop) (.entered .typesetting :: (es ++ ds))
        { a with tree := t, phase := .typesetting, typesetting := true })
    (driven : ∀ tex result es ds t, c.Probing (.ok ()) es → c.Driving (.ok result) ds →
      Q (.ok tex) (.entered .typesetting :: (es ++ ds))
        { a with tree := t, phase := .typesetting, typesetting := true, result := some result }) :
    Meets (c.typeset program).run a Q := by
  refine meets_lift_bind (meets_enter (meets_lift_bind (meets_update (meets_stage_bind ?_))))
  refine meets_probeVersion.imp ?_
  rintro (stop | version) es a' ⟨hp, t, rfl⟩
  · exact probing stop es t hp
  refine meets_lift_bind (meets_chore fun past => meets_stage_bind (meets_drive.imp ?_))
  rintro r ds a' ⟨r', rfl, hd, t', rfl⟩
  cases r' with
  | error stop => exact driving stop es ds t' hp hd
  | ok result =>
    refine meets_stage_pure ?_
    simpa [Except.toOption] using driven _ result es ds t' hp hd

/-! ### Reporting -/

private theorem meets_complete {pdf : Path} : Meets (c.complete pdf).run a fun r es a' =>
    (match r with
    | .ok () => c.Completing pdf es
    | .error e => c.Completing pdf (es ++ [.shown (.error (c.completionFailure pdf e))])) ∧
      ∃ t, a' = { a with tree := t } := by
  rw [complete]
  cases hc : c.completion with
  | none => exact meets_stage_pure ⟨.nothing hc, _, rfl⟩
  | view =>
    refine meets_stage_bind (meets_lift (meets_record rfl ?_))
    change Meets (chore (c.viewer pdf).run) a _
    refine meets_chore fun past => ⟨?_, _, rfl⟩
    cases hr : ((c.viewer pdf).run past a.tree).result with
    | ok => exact .viewed hc
    | error e => exact .notViewed hc (.viewer hc ⟨past, _, hr⟩)
  | publish =>
    cases hh : c.home with
    | none => exact meets_throw ⟨.homeless hc hh, _, rfl⟩
    | some home =>
      refine meets_stage_bind (meets_lift (meets_record rfl ?_))
      change Meets (chore (c.publisher (pdf.aliased home)).run) a _
      refine meets_chore fun past => ⟨?_, _, rfl⟩
      cases hr : ((c.publisher (pdf.aliased home)).run past a.tree).result with
      | ok => exact .published hc hh
      | error e => exact .notPublished hc hh (.publisher hc hh ⟨past, _, hr⟩)

private theorem meets_runCompletion {pdf : Path} : Meets (c.runCompletion pdf) a fun _ es a' =>
    c.Completing pdf es ∧ ∃ t, a' = { a with tree := t } := by
  refine meets_bind (meets_complete.imp ?_)
  rintro (e | ⟨⟩) es a' ⟨hc, t, rfl⟩
  · exact meets_bind (meets_log (meets_record rfl ⟨hc, t, rfl⟩))
  · refine meets_pure ⟨?_, t, rfl⟩
    simpa using hc

theorem meets_succeed {result : ToolOutput} : Meets (c.succeed result) a fun o es a' =>
    o = c.successOutcome result ∧
      (∃ es', es = .shown (.plain "completed\n") :: es' ∧ c.Completing (pdfPath c.target) es') ∧
      ∃ t, a' = { a with tree := t } := by
  refine meets_bind (meets_record rfl (meets_bind (meets_runCompletion.imp ?_)))
  rintro - es a' ⟨hc, t, rfl⟩
  refine meets_pure ⟨rfl, ⟨es, ?_, hc⟩, t, rfl⟩
  simp

/-- A toolchain that failed: the logs are kept, and the exit depends on the diagnostics. -/
theorem meets_diagnose {program tex : Path} {concordance : Concordance} {result : ToolOutput}
    (h : result.status ≠ 0) :
    Meets (c.diagnose program tex concordance result).run a fun r es a' =>
      c.Reporting program concordance result r (.entered .reporting :: es) ∧
        ∃ t, a' = { a with tree := t, cleanup := a.cleanup.keepLogs } := by
  refine meets_lift_bind (meets_record rfl (meets_lift_bind (meets_update ?_)))
  refine meets_lift_bind (meets_chore fun past => ?_)
  have hd : c.Collects concordance
      (Diagnostics.collect c.here tex concordance past a.tree).result := ⟨tex, past, a.tree, rfl⟩
  -- from here on nothing matters about the diagnostics but that they were collected
  generalize (Diagnostics.collect c.here tex concordance past a.tree).result = r at hd
  cases r with
  | error e => exact meets_lift_bind (meets_record rfl (meets_throw ⟨.uncollected h hd, _, rfl⟩))
  | ok d =>
  refine meets_lift_bind (meets_record rfl (meets_lift_bind (meets_displayAll ?_)))
  cases hr : d.report.2 with
  | error e =>
    refine meets_throw ⟨?_, _, rfl⟩
    simpa [failureStory] using .unshowable h hd e (.inl hr)
  | ok =>
    cases hl : d.lines with
    | error e =>
      refine meets_throw ⟨?_, _, rfl⟩
      simpa [failureStory] using .unshowable h hd e (.inr hl)
    | ok lines =>
      cases hf : d.found with
      | true =>
        refine meets_stage_pure ⟨?_, _, rfl⟩
        simpa [failureStory] using .found h hd hr hl hf
      | false =>
        refine meets_throw ⟨?_, _, rfl⟩
        simpa [failureStory] using .process h hd hr hf

/-- The cleanup of an attempt once the end of the toolchain is reported. -/
def cleanupBehind (a : Attempt) (result : ToolOutput) : Cleanup :=
  if result.status = 0 then a.cleanup else a.cleanup.keepLogs

private theorem meets_report {program tex : Path} {concordance : Concordance} {result : ToolOutput}
    (ha : a.result = some result) :
    Meets (c.report program tex concordance).run a fun r es a' =>
      c.Reporting program concordance result r es ∧
        ∃ t, a' = { a with tree := t, phase := .reporting,
                           cleanup := cleanupBehind a result } := by
  refine meets_lift_bind (meets_enter (meets_lift_bind (meets_current ?_)))
  simp only [ha, Option.getD_some]
  by_cases h : result.status = 0
  · simp only [if_pos h]
    refine meets_lift (meets_succeed.imp ?_)
    rintro o es a' ⟨rfl, ⟨es', rfl, hc⟩, t, rfl⟩
    exact ⟨.succeeded h hc, t, by simp [cleanupBehind, h]⟩
  · simp only [if_neg h]
    refine (meets_diagnose h).imp ?_
    rintro r es a' ⟨hr, t, rfl⟩
    exact ⟨hr, t, by simp [cleanupBehind, h]⟩

/-! ### The whole -/

private theorem meets_pipeline {t : Tree} : Meets c.pipeline.run { tree := t } fun r es a' =>
    c.Course t r es a'.typesetting a'.result ∧
      a'.cleanup = if a'.result.any (·.status ≠ 0) then (c.cleanupAfter { tree := t }).keepLogs
        else c.cleanupAfter { tree := t } := by
  refine meets_stage_bind (meets_validate.imp ?_)
  rintro (stop | x) es a' ⟨hv, rfl⟩
  · exact ⟨.validating hv, rfl⟩
  refine meets_stage_bind (meets_weaveLiterate.imp ?_)
  rintro (stop | concordance) es' a' ⟨hw, phase, t', rfl⟩
  · exact ⟨.weaving hv hw, rfl⟩
  refine meets_stage_bind (meets_typeset ?_ ?_ ?_)
  · intro stop es'' _ hp
    exact ⟨.probing hv hw hp, rfl⟩
  · intro stop es'' ds _ hp hd
    exact ⟨.driving hv hw hp hd, rfl⟩
  · intro tex result es'' ds _ hp hd
    refine (meets_report rfl).imp ?_
    rintro r rs a' ⟨hr, t'', rfl⟩
    refine ⟨?_, by simp [cleanupBehind]⟩
    simpa using Course.reporting hv hw hp hd hr

theorem meets_fail {stop : Stop} : Meets (c.fail stop) a fun o es a' =>
    o = stop.outcome a.result ∧ es = stopStory stop ∧
      a' = { a with phase := .reporting,
                    cleanup := if a.typesetting then a.cleanup.keepLogs else a.cleanup } := by
  -- a crash is logged first, and from there on all stops are told alike
  have told : Meets (do
      c.enter .reporting
      let a ← current
      if a.typesetting then keepLogs
      display (.error (stop.message ++ "\n"))
      return stop.outcome a.result) a fun o es a' =>
        o = stop.outcome a.result ∧ es = stopStory stop ∧
          a' = { a with phase := .reporting,
                        cleanup := if a.typesetting then a.cleanup.keepLogs else a.cleanup } := by
    refine meets_bind (meets_enter (meets_bind (meets_current ?_)))
    cases h : a.typesetting with
    | true =>
      refine meets_bind (meets_update (meets_bind (meets_record rfl (meets_pure ?_))))
      simp [stopStory]
    | false =>
      refine meets_bind (meets_record rfl (meets_pure ?_))
      simp [stopStory]
  cases stop with
  | crash e => exact meets_bind (meets_log told)
  | _ => exact told

/-- **An attempt comes to an end**: it takes a course, and its cleanup knows the document if that
was validated and keeps the logs after a failure that came once typesetting was reached. -/
theorem meets_attempt {t : Tree} : Meets c.attempt { tree := t } fun o es a =>
    c.Ending t o es a.typesetting a.result ∧
      a.cleanup = if a.typesetting = true ∧ o.kind ≠ .success then
        (c.cleanupAfter { tree := t }).keepLogs else c.cleanupAfter { tree := t } := by
  refine meets_bind (meets_pipeline.imp ?_)
  rintro (stop | o) es a ⟨hc, ha⟩
  · refine meets_fail.imp ?_
    rintro o es' a' ⟨rfl, rfl, rfl⟩
    refine ⟨.stopped hc, ?_⟩
    -- a stop is no success, so the logs stay just if typesetting was reached
    have hk : (stop.outcome a.result).kind ≠ .success := stop.kind_ne_success
    cases ht : a.typesetting with
    | true =>
      simp only [ha, hk, if_true, ne_eq, not_false_eq_true, and_self]
      split <;> rfl
    | false =>
      rw [ht] at hc
      simp [ha, hc.result?_eq_none]
  · refine meets_pure ⟨by simpa using .reported hc, ?_⟩
    obtain ⟨ht, result, hr, hk⟩ := hc.exists_result
    simp [ha, ht, hr, hk]

theorem meets_carryOut {t : Tree} : Meets c.carryOut { tree := t } fun o es a =>
    c.Ending t o es a.typesetting a.result ∧
      a.cleanup = if a.typesetting = true ∧ o.kind ≠ .success then
        (c.cleanupAfter { tree := t }).keepLogs else c.cleanupAfter { tree := t } :=
  meets_bind (meets_logAll (meets_attempt.imp fun _ _ _ h => by simpa using h))

/-! ### Runs -/

theorem meets_finish : Meets c.finish a fun _ es a' =>
    es = [.entered .finished] ∧
      ∃ past, a'.tree = ((c.cleaner a.cleanup).run past a.tree).state := by
  refine meets_bind (meets_enter (meets_bind (meets_current (meets_bind ?_))))
  refine meets_chore fun past => ?_
  cases ((c.cleaner a.cleanup).run past a.tree).result with
  | ok cleanup => exact meets_update ⟨rfl, past, rfl⟩
  | error e => exact meets_log ⟨rfl, past, rfl⟩

/-- A run of a fresh attempt carries it out and then ends it. -/
theorem run_of_created (h : a.phase = .created) (past : List Event) :
    c.run past a = (do
      let outcome ← c.carryOut
      c.finish
      logAll (outcome.messages c.target c.elapsed false)
      return some outcome : Work Event Attempt (Option Outcome)) past a := by
  simp only [run, Work.bind_apply, current, Work.look_apply, h, ne_eq, not_true, if_false,
    List.append_nil, List.nil_append]

/-- **A run gives the outcome of its attempt**, and its tree is what the cleaner makes of the tree
that the attempt leaves. -/
theorem run_eq_some (h : a.phase = .created) (past : List Event) :
    (c.run past a).result = some (c.carryOut past a).result ∧
      story (c.run past a).events = story (c.carryOut past a).events ++ [.entered .finished] ∧
      ∃ past', (c.run past a).state.tree =
        ((c.cleaner (c.carryOut past a).state.cleanup).run past'
          (c.carryOut past a).state.tree).state := by
  rw [run_of_created h, Work.bind_apply]
  -- what comes behind the attempt starts from whatever the attempt has left
  generalize c.carryOut past a = d
  have behind : Meets (do
      c.finish
      logAll (d.result.messages c.target c.elapsed false)
      return some d.result) d.state fun r es a' =>
        r = some d.result ∧ es = [.entered .finished] ∧
          ∃ past', a'.tree = ((c.cleaner d.state.cleanup).run past' d.state.tree).state := by
    refine meets_bind (meets_finish.imp ?_)
    rintro - es a' ⟨rfl, ht⟩
    exact meets_bind (meets_logAll (meets_pure ⟨rfl, rfl, ht⟩))
  obtain ⟨hr, hs, ht⟩ := behind (past ++ d.events)
  exact ⟨hr, by rw [story_append, hs], ht⟩

/-- An event of a run is an event of its attempt, but for the notes and the last phase. -/
theorem mem_events_run {t : Tree} {e : Event} (hn : e.note? = none) (hf : e ≠ .entered .finished)
    (past : List Event) : e ∈ (c.run past { tree := t }).events ↔
      e ∈ story (c.carryOut past { tree := t }).events := by
  obtain ⟨-, hs, -⟩ := run_eq_some (c := c) (a := { tree := t }) rfl past
  have hiff := mem_story e (c.run past { tree := t }).events
  rw [hs, List.mem_append, List.mem_singleton] at hiff
  simpa [hn, hf] using hiff.symm

theorem mem_of_mem_phases {phase : Phase} {events : List Event}
    (h : phase ∈ events.filterMap Event.phase?) : .entered phase ∈ events := by
  obtain ⟨e, he, hp⟩ := List.mem_filterMap.mp h
  cases e with
  | entered p =>
    cases hp
    exact he
  | _ => cases hp

/-! ### A document on a host -/

/-- A host with the current directory at the root, where programs are searched for. -/
def rootHost : Host := ⟨Path.ofString "/", ⟨[("PATH", "/")]⟩⟩

/-- A tree with a TeX program and a document: what it was woven from, what its bibliography is
made from, and the bibliography of an earlier run. -/
def thesis : Tree :=
  (do
    let t ← (∅ : Tree).install rootHost.here (Path.ofString "/pdflatex")
    let t ← t.write rootHost.here (Path.ofString "/r.Rnw") []
    let t ← t.write rootHost.here (Path.ofString "/r.tex") []
    let t ← t.write rootHost.here (Path.ofString "/r.bib") []
    t.write rootHost.here (Path.ofString "/r.bbl") []).toOption.getD ∅

/-- A run of the TeX program over the document: it leaves a log with two errors, one of them in
another file. -/
def typesetThesis (status : Int) : ScriptedRun where
  written := [(Path.ofString "r.aux", some []),
    (Path.ofString "r.log", some (Text.utf8Encode "./a.tex:3: m.\n./r.tex:1: m."))]
  ending := .exited status [] []

/-- The compilation of the document by a TeX program that ends with a status. -/
def ofThesis (status : Int) : Compilation :=
  onHost rootHost (Script.programs ⟨[("pdflatex", [typesetThesis status])]⟩ rootHost.here)
    (fun _ => pure ()) "r.tex" .none {}

end Compilation

end Galley
