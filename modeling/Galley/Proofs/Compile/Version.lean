import Galley.Proofs.Compile.Agree
import Galley.Proofs.Compile.Heeds
import Galley.Proofs.Compile.Landmarks
import Galley.Proofs.Compile.StaleLogs
import Galley.Proofs.Toolchain.Queries

/-!
# The version of the TeX program

Whether the version is known, and what it is, makes no difference to a compilation:
`run_answering` compares runs whose version queries are answered differently.

A probe that only asks (`OnlyAsks`) leaves the tree and stops nothing. What is different behind it
are messages, a warning, how its start ended and the version among the options. Whoever looks at
none of these cannot tell the two runs apart (`Event.versionless?`), and on a host nobody does
(`versionBlind_onHost`).
-/

namespace Galley

open Work

/-- What an event looks like to those who do not know the version: a message, a warning and what
the probe raises like nothing, a start like one in an empty tree that has not ended, and whatever
else like itself. -/
def Event.versionless? : Event → Option Event
  | .note n => n.start?.map fun s => .note (.started s ∅ none)
  | .warned _ => none
  | .raised .probe _ => none
  | e => some e

namespace Event

private theorem start?_versionless (e : Event) : e.versionless?.bind start? = e.start? := by
  cases e with
  | note n => cases n <;> rfl
  | raised role stop => cases role <;> rfl
  | _ => rfl

private theorem shown?_versionless (e : Event) : e.versionless?.bind shown? = e.shown? := by
  cases e with
  | note n => cases n <;> rfl
  | raised role stop => cases role <;> rfl
  | _ => rfl

private theorem filterMap_versionless_notes (notes : List Note) :
    (notes.map note).filterMap versionless? =
      (startsOf notes).map fun s => note (.started s ∅ none) := by
  rw [List.filterMap_map, startsOf, List.map_filterMap]
  rfl

end Event

namespace Compilation

variable {c : Compilation} {a : Attempt} {program : Path}
  {probe probe' : Path → ExceptT Stop (Work Note Tree) String}

/-- Whether a probe asks a program once, leaves the tree and is without a version at worst. -/
def OnlyAsks (probe : Path → ExceptT Stop (Work Note Tree) String) : Prop :=
  ∀ program past t, Leads (probe program).run past t fun r notes t' =>
    (∀ stop, r = .error stop → ∃ message, stop = .version message) ∧
      startsOf notes = [probeStart program] ∧ t' = t

/-- Whether nobody behind the probe looks at more than the starts before, or at the version. -/
structure VersionBlind (c : Compilation) : Prop where
  weaver : ∀ directives, Work.Heeds Note.start? (c.weaver c.target directives).run
  driver : ∀ {t d}, c.driver t = .ok d →
    ∀ tex options, Work.Heeds Note.start? (d.run tex options).run
  options : ∀ {t d}, c.driver t = .ok d →
    ∀ tex o version, d.run tex { o with version } = d.run tex o
  viewer : ∀ pdf, Work.Heeds Note.start? (c.viewer pdf).run
  publisher : ∀ name, Work.Heeds Note.start? (c.publisher name).run
  cleaner : ∀ cleanup, Work.Heeds Note.start? (c.cleaner cleanup).run

/-- Two stages look the same to those who do not know the version, and leave the same attempt. -/
abbrev Matches {α : Type} (w w' : Work Event Attempt α) (a : Attempt) : Prop :=
  Work.Agree Event.versionless? w w' a a fun _ _ b b' => b = b'

private theorem matches_of_heeds {α : Type} {w : Work Event Attempt α} (h : Heeds Note.start? w) :
    Matches w w a :=
  Work.Heeds.agree h Event.start?_versionless a

/-! ### Behind the probe -/

private theorem OnlyAsks.leads_probeVersion (hp : OnlyAsks probe) (past : List Event) :
    Leads ({ c with probe }.probeVersion program).run past a fun r es a' =>
      (∃ version, r = .ok version) ∧
        es.filterMap Event.versionless? = [.note (.started (probeStart program) ∅ none)] ∧
          a' = a := by
  refine leads_stage_bind (leads_lift (leads_chore ((hp program _ a.tree).imp ?_)))
  rintro (stop | version) notes _ ⟨hr, hs, rfl⟩
  · obtain ⟨message, rfl⟩ := hr stop rfl
    refine leads_lift_bind (leads_record (leads_lift_bind (leads_chore (leads_log ?_))))
    refine leads_lift_bind (leads_record (leads_stage_pure ⟨⟨_, rfl⟩, ?_, rfl⟩))
    rw [List.filterMap_append, Event.filterMap_versionless_notes, hs]
    rfl
  · refine leads_lift_bind (leads_chore (leads_log (leads_stage_pure ⟨⟨_, rfl⟩, ?_, rfl⟩)))
    rw [List.filterMap_append, Event.filterMap_versionless_notes, hs]
    rfl

variable (h : c.VersionBlind) (hp : OnlyAsks probe) (hp' : OnlyAsks probe')
include h hp hp'

namespace VersionBlind

omit hp hp' in
private theorem drive_version (tex : Path) (o : TexOptions) (version : String) :
    c.drive tex { o with version } = c.drive tex o := by
  refine ExceptT.ext (funext fun past => funext fun a => ?_)
  simp only [drive, current, run_bind_apply, run_liftM_apply, look_apply]
  cases hd : c.driver a.tree with
  | error stop => rfl
  | ok driver => simp only [Stage.accept, run_pure_apply, h.options hd]

/-- What comes behind the probe is done whatever the version is. -/
private theorem matches_typeset :
    Matches ({ c with probe }.typeset program).run ({ c with probe := probe' }.typeset program).run
      a := by
  refine agree_lift_bind ((matches_of_heeds (heeds_enter _)).imp ?_)
  rintro _ _ a _ rfl
  refine agree_lift_bind (agree_change ?_)
  refine agree_stage_bind_of_leads hp.leads_probeVersion hp'.leads_probeVersion ?_
  intro version version'
  refine agree_lift_bind ((matches_of_heeds (heeds_chore (heeds_removeStaleLogs _ _))).imp ?_)
  rintro _ _ a _ rfl
  have hversion := h.drive_version (c.target.sibling ".tex")
    { program, shellEscape := c.settings.shellEscape, version := version' } version
  refine (?_ : Matches (c.drive _ { program, shellEscape := c.settings.shellEscape, version } >>=
    fun _ => pure _ : Stage Path).run _ a)
  rw [hversion]
  exact matches_of_heeds (heeds_stage_bind (heeds_drive fun hd => h.driver hd _ _) fun _ =>
    heeds_stage_pure _)

private theorem matches_pipeline :
    Matches { c with probe }.pipeline.run { c with probe := probe' }.pipeline.run a := by
  refine agree_stage_bind ((matches_of_heeds heeds_validate).imp ?_)
  rintro (stop | ⟨directives, program⟩) _ a _ rfl
  · rfl
  refine agree_stage_bind ((matches_of_heeds (heeds_weaveLiterate (h.weaver _))).imp ?_)
  rintro (stop | concordance) _ a _ rfl
  · rfl
  refine agree_stage_bind ((h.matches_typeset hp hp').imp ?_)
  rintro (stop | tex) _ a _ rfl
  · rfl
  exact matches_of_heeds (heeds_report (h.viewer _) h.publisher)

private theorem matches_carryOut :
    Matches { c with probe }.carryOut { c with probe := probe' }.carryOut a := by
  refine agree_bind ((matches_of_heeds (heeds_logAll _)).imp ?_)
  rintro _ _ a _ rfl
  refine agree_bind ((h.matches_pipeline hp hp').imp ?_)
  rintro (stop | o) _ a _ rfl
  · exact matches_of_heeds (heeds_fail stop)
  · exact agree_pure rfl

private theorem matches_run : Matches { c with probe }.run { c with probe := probe' }.run a := by
  refine agree_look_bind ?_
  split
  · exact agree_pure rfl
  refine agree_bind ((h.matches_carryOut hp hp').imp ?_)
  rintro o _ a _ rfl
  refine agree_bind ((matches_of_heeds (heeds_finish h.cleaner)).imp ?_)
  rintro _ _ a _ rfl
  refine agree_bind ((matches_of_heeds (heeds_logAll _)).imp ?_)
  rintro _ _ a _ rfl
  exact agree_pure rfl

end VersionBlind

omit h hp hp'

/-! ### The probe is never fatal -/

/-- Only a probe or the choice of a driver can keep a compilation that has reached typesetting from
driving. -/
private theorem Course.startLine_mem {t : Tree} {r : Except Stop Outcome} {es : List Event}
    {typesetting : Bool} {result? : Option ToolOutput} (h : c.Course t r es typesetting result?)
    (hp : OnlyAsks c.probe) (hd : ∀ t stop, c.driver t ≠ .error stop)
    (ht : .entered .typesetting ∈ es) : .shown startLine ∈ es := by
  cases h with
  | validating hv => cases hv <;> simp at ht
  | weaving hv hw =>
    cases hv
    cases hw <;> simp at ht
  | probing hv hw hp' =>
    cases hp' with
    | raised hv hs =>
      obtain ⟨program, past, t, hs⟩ := hs
      obtain ⟨message, rfl⟩ := (hp program past t).1 _ hs
      exact absurd rfl (hv message)
  | driving hv hw hp' hd' =>
    cases hd' with
    | unchosen hs => exact absurd hs.choose_spec (hd _ _)
    | raised hs => simp
  | reporting hv hw hp' hd' hr =>
    cases hd'
    simp

private theorem Ending.startLine_mem {t : Tree} {o : Outcome} {es : List Event} {typesetting : Bool}
    {result? : Option ToolOutput} (h : c.Ending t o es typesetting result?)
    (hp : OnlyAsks c.probe) (hd : ∀ t stop, c.driver t ≠ .error stop)
    (ht : .entered .typesetting ∈ es) : .shown startLine ∈ es := by
  cases h with
  | reported h => exact h.startLine_mem hp hd ht
  | stopped h =>
    rw [List.mem_append] at ht ⊢
    exact .inl (h.startLine_mem hp hd (ht.resolve_right (by simp [stopStory])))

private theorem startLine_mem_of_run (hp : OnlyAsks c.probe)
    (hd : ∀ t stop, c.driver t ≠ .error stop) (past : List Event) (t : Tree)
    (ht : .entered .typesetting ∈ (c.run past { tree := t }).events) :
    .shown startLine ∈ (c.run past { tree := t }).events := by
  obtain ⟨he, -⟩ := meets_carryOut (c := c) (t := t) past
  rw [mem_events_run rfl (by simp)] at ht ⊢
  exact he.startLine_mem hp hd ht

/-! ### On a host -/

variable {host : Host} {programs : Programs} {answer answer' : List Start → Start → Tree → Answer}
  {viewer : Path → ExceptT Crash (Work Note Tree) Unit} {document : String}
  {completion : Completion} {settings : Settings}

private theorem onlyAsks_answering : OnlyAsks fun program => ExceptT.adapt Stop.ofProbeError
    (Toolchain.probeVersion (programs.answering answer) program) := by
  intro program past t
  refine leads_adapt ((Toolchain.leads_probeVersion_answering programs answer).imp ?_)
  rintro r notes t' ⟨hr, hs, ht⟩
  refine ⟨fun stop hstop => ?_, hs, ht⟩
  cases r with
  | ok version => cases hstop
  | error e =>
    obtain ⟨reason, rfl⟩ := hr e rfl
    exact ⟨_, (Except.error.inj hstop).symm⟩

theorem versionBlind_onHost (hviewer : ∀ pdf, Work.Heeds Note.start? (viewer pdf).run) :
    (onHost host programs viewer document completion settings).VersionBlind where
  weaver directives := heeds_adapt _ (Weaver.heeds_viaR host programs settings _ directives)
  driver hd tex o := by
    cases hd
    exact heeds_adapt _ (Toolchain.Choice.heeds_run _ host programs _ tex o)
  options hd tex o version := by
    cases hd
    exact congrArg (ExceptT.adapt Stop.ofDriverError)
      (Toolchain.Choice.run_version programs host _ _ tex o version)
  viewer := hviewer
  publisher := heeds_logPublisher
  cleaner := Cleanup.heeds_cleaner host.here

variable (host programs answer answer' document completion settings) in
/-- **The version probe is never fatal and never changes a compilation.** Two runs in which
programs answer version queries differently, with any status and any output or not at all, have the
same outcome, show the same, start the same programs in the same order and end with the same tree;
and a run that reaches typesetting goes on to the driver. -/
theorem run_answering (hviewer : ∀ pdf, Work.Heeds Note.start? (viewer pdf).run)
    (past : List Event) (t : Tree) :
    let c := fun answer =>
      onHost host (programs.answering answer) viewer document completion settings
    let first := (c answer).run past { tree := t }
    let second := (c answer').run past { tree := t }
    (∃ o, first.result = some o ∧ second.result = some o) ∧
      first.events.filterMap Event.shown? = second.events.filterMap Event.shown? ∧
      first.events.filterMap Event.start? = second.events.filterMap Event.start? ∧
      first.state.tree = second.state.tree ∧
      (.entered .typesetting ∈ first.events → .shown startLine ∈ first.events) := by
  intro c first second
  have hfirst := onHost_answering programs answer host viewer document completion settings
  have hsecond := onHost_answering programs answer' host viewer document completion settings
  have hmatch : Matches (c answer).run (c answer').run { tree := t } := by
    simp only [c, hfirst, hsecond]
    exact (versionBlind_onHost hviewer).matches_run onlyAsks_answering onlyAsks_answering
  obtain ⟨hr, he, ht⟩ := hmatch past past rfl
  obtain ⟨ho, -⟩ := run_eq_some (c := c answer) (a := { tree := t }) rfl past
  refine ⟨⟨_, ho, hr.symm.trans ho⟩, filterMap_congr_of_bind Event.shown?_versionless he,
    filterMap_congr_of_bind Event.start?_versionless he, congrArg Attempt.tree ht,
    startLine_mem_of_run onlyAsks_answering (fun _ _ h => by cases h) past t⟩

/-- A compilation of the document by programs that do nothing but answer version queries. -/
def answeredCompilation (answer : List Start → Start → Tree → Answer) : Compilation :=
  onHost rootHost
    ((Programs.ofRuns (idleRuns fun _ => .exited 0 [] []) rootHost.here).answering answer)
    (fun _ => pure ()) "r.tex" .none {}

private theorem onHost_idle_answering (answer : List Start → Start → Tree → Answer) :
    onHost rootHost
      ((Programs.ofRuns (idleRuns fun _ => .exited 0 [] []) rootHost.here).answering answer)
      (fun _ => pure ()) "r.tex" .none {} = answeredCompilation answer := rfl

/-- One program fails when it is asked, and another one cannot be started: the warnings are not the
same, but all else is, and the driver is called. -/
theorem run_answering_unknown :
    let c := answeredCompilation fun _ _ _ => .exited 1 "" "bad option"
    let c' := answeredCompilation fun _ _ _ => .refused "permission denied"
    (c.run [] { tree := swept }).events.filterMap Event.warning? ≠
        (c'.run [] { tree := swept }).events.filterMap Event.warning? ∧
      (∃ o, (c.run [] { tree := swept }).result = some o ∧
        (c'.run [] { tree := swept }).result = some o) ∧
      (c.run [] { tree := swept }).events.filterMap Event.shown? =
        (c'.run [] { tree := swept }).events.filterMap Event.shown? ∧
      .shown startLine ∈ (c.run [] { tree := swept }).events := by
  have hwarned : ((answeredCompilation fun _ _ _ => .exited 1 "" "bad option").run []
      { tree := swept }).events.filterMap Event.warning? ≠
        ((answeredCompilation fun _ _ _ => .refused "permission denied").run []
          { tree := swept }).events.filterMap Event.warning? := by
    decide +kernel
  have hphase : .typesetting ∈ ((answeredCompilation fun _ _ _ => .exited 1 "" "bad option").run []
      { tree := swept }).events.filterMap Event.phase? := by
    decide +kernel
  have hrun := run_answering rootHost
    (Programs.ofRuns (idleRuns fun _ => .exited 0 [] []) rootHost.here)
    (fun _ _ _ => .exited 1 "" "bad option") (fun _ _ _ => .refused "permission denied") "r.tex"
    .none {} (fun _ => heeds_stage_pure ()) [] swept
  simp only [onHost_idle_answering] at hrun
  obtain ⟨ho, hshown, -, -, hdriven⟩ := hrun
  exact ⟨hwarned, ho, hshown, hdriven (mem_of_mem_phases hphase)⟩

end Compilation

end Galley
