import Galley.Proofs.Compile.Heeds
import Galley.Proofs.Compile.Landmarks
import Galley.Proofs.Compile.Progress
import Galley.Proofs.Compile.StaleLogs

/-!
# What is done with the PDF

To view or to publish the PDF of a compilation does not interfere with it: `completion_of_run`.

The viewer and the publisher are called in turn: once at most, and only behind a driver that
succeeded and a line that tells so (`InTurn`). Before that, the completion makes a difference to one
message only, so that impartial collaborators lead every completion to the same end of the
toolchain (`Impartial`). Behind it nothing looks at what the viewer or the publisher did, and all
that is added to what is shown is an error if they failed (`TellsOf`).
-/

namespace Galley

open Work

/-! ### Milestones -/

/-- A step on the way to a PDF that is viewed or published. -/
inductive Milestone where
  /-- The driver returned. -/
  | drove (status : Int)
  /-- Success was shown. -/
  | completed
  | viewed (pdf : Path)
  | published (pdf : String)
  deriving DecidableEq, Repr

/-- The milestone that an event is, if it is one. -/
def Event.milestone? : Event → Option Milestone
  | .drove result => some (.drove result.status)
  | .shown line => if line = .plain "completed\n" then some .completed else none
  | .viewed pdf => some (.viewed pdf)
  | .published pdf => some (.published pdf)
  | _ => none

/-- The milestones among events. -/
def milestones (events : List Event) : List Milestone := events.filterMap Event.milestone?

@[simp]
theorem milestones_nil : milestones [] = [] := rfl

@[simp]
theorem milestones_append (xs ys : List Event) :
    milestones (xs ++ ys) = milestones xs ++ milestones ys :=
  List.filterMap_append ..

private theorem milestones_story (events : List Event) : milestones (story events) =
    milestones events := by
  rw [milestones, milestones, story, List.filterMap_filter]
  refine List.filterMap_congr fun e _ => ?_
  cases e <;> rfl

/-- No error tells of success. -/
private theorem milestones_error (text : String) : milestones [.shown (.error text)] = [] := by
  simp [milestones, Event.milestone?, ProgressLine.error, ProgressLine.plain]

/-- No line of a report tells of success. -/
private theorem milestones_report (d : Diagnostics) : milestones (d.report.1.map .shown) = [] := by
  rw [milestones, List.filterMap_map, List.filterMap_eq_nil_iff]
  exact fun line hl => if_neg (Diagnostics.isWhole_of_mem_report hl).notCompleted

/-- A note that is not a message. -/
def Note.deed? : Note → Option Note
  | .logged _ => none
  | .started s t status => some (.started s t status)

private theorem Note.start?_deed (n : Note) : n.deed?.bind Note.start? = n.start? := by
  cases n <;> rfl

namespace Compilation

variable (c : Compilation)

/-- The calls that are made once a compilation succeeded. Without a home directory there is no name
to publish the PDF under. -/
def calls : List Milestone :=
  let pdf := c.target.parent.child (c.target.stem ++ ".pdf")
  match c.completion, c.home with
  | .none, _ => []
  | .view, _ => [.viewed pdf]
  | .publish, none => []
  | .publish, some home => [.published (pdf.aliased home)]

/-- The milestones of a run: the driver may not be reached, or fail, and whatever is called is
called last. -/
inductive InTurn : List Milestone → Prop
  | undriven : InTurn []
  | failed {status : Int} (h : status ≠ 0) : InTurn [.drove status]
  | succeeded : InTurn (.drove 0 :: .completed :: c.calls)

variable {c} {t : Tree}

private theorem Validating.milestones_eq {r : Except Stop (Directives × Path)} {es : List Event}
    (h : c.Validating t r es) : milestones es = [] := by
  cases h <;> rfl

private theorem Weaving.milestones_eq {r : Except Stop Concordance} {es : List Event}
    (h : c.Weaving r es) : milestones es = [] := by
  cases h <;> rfl

private theorem Probing.milestones_eq {r : Except Stop Unit} {es : List Event}
    (h : c.Probing r es) : milestones es = [] := by
  cases h <;> rfl

/-- Until the driver is called there are no milestones. -/
private theorem milestones_typeset {rv : Except Stop (Directives × Path)}
    {rw : Except Stop Concordance}
    {rp : Except Stop Unit} {es es' es'' : List Event} (hv : c.Validating t rv es)
    (hw : c.Weaving rw es') (hp : c.Probing rp es'') (ds : List Event) :
    milestones (es ++ (es' ++ .entered .typesetting :: (es'' ++ ds))) = milestones ds := by
  rw [milestones_append, milestones_append, hv.milestones_eq, hw.milestones_eq]
  change milestones (es'' ++ ds) = milestones ds
  rw [milestones_append, hp.milestones_eq, List.nil_append]

private theorem Driving.milestones_of_error {stop : Stop} {es : List Event}
    (h : c.Driving (.error stop) es) : milestones es = [] := by
  cases h <;> rfl

private theorem Driving.milestones_of_ok {result : ToolOutput} {es : List Event}
    (h : c.Driving (.ok result) es) : milestones es = [.drove result.status] := by
  cases h
  rfl

private theorem Completing.milestones_eq {es : List Event}
    (h : c.Completing (pdfPath c.target) es) : milestones es = c.calls := by
  have behind (e : Event) (text : String) :
      milestones [e, .shown (.error text)] = milestones [e] := by
    rw [← List.singleton_append, milestones_append, milestones_error, List.append_nil]
  cases h with
  | nothing h =>
    rw [calls, h]
    rfl
  | viewed h =>
    rw [calls, h]
    rfl
  | notViewed h he =>
    rw [behind, calls, h]
    rfl
  | homeless h hh =>
    rw [milestones_error, calls, h, hh]
  | published h hh =>
    rw [calls, h, hh]
    rfl
  | notPublished h hh he =>
    rw [behind, calls, h, hh]
    rfl

private theorem Reporting.milestones_of_error {program : Path} {concordance : Concordance}
    {result : ToolOutput} {stop : Stop} {es : List Event}
    (h : c.Reporting program concordance result (.error stop) es) :
    result.status ≠ 0 ∧ milestones es = [] := by
  cases h with
  | uncollected h => exact ⟨h, rfl⟩
  | process h | unshowable h => exact ⟨h, milestones_report _⟩

private theorem Reporting.milestones_of_ok {program : Path} {concordance : Concordance}
    {result : ToolOutput} {o : Outcome} {es : List Event}
    (h : c.Reporting program concordance result (.ok o) es) :
    c.InTurn (.drove result.status :: milestones es) := by
  cases h with
  | succeeded h hc =>
    rw [h]
    change c.InTurn (.drove 0 :: .completed :: milestones _)
    rw [hc.milestones_eq]
    exact .succeeded
  | @found h d =>
    rw [failureStory]
    change c.InTurn (.drove result.status :: milestones (d.report.1.map .shown))
    rw [milestones_report]
    exact .failed h

/-- Whatever course a compilation takes, its milestones come in turn. -/
private theorem Course.inTurn {r : Except Stop Outcome} {es : List Event} {typesetting : Bool}
    {result? : Option ToolOutput} (h : c.Course t r es typesetting result?) :
    c.InTurn (milestones es) := by
  cases h with
  | validating hv =>
    rw [hv.milestones_eq]
    exact .undriven
  | weaving hv hw =>
    rw [milestones_append, hv.milestones_eq, hw.milestones_eq]
    exact .undriven
  | probing hv hw hp =>
    have htyp := milestones_typeset hv hw hp []
    rw [List.append_nil] at htyp
    rw [htyp]
    exact .undriven
  | driving hv hw hp hd =>
    rw [milestones_typeset hv hw hp, hd.milestones_of_error]
    exact .undriven
  | reporting hv hw hp hd hr =>
    rw [milestones_typeset hv hw hp, milestones_append, hd.milestones_of_ok]
    cases r with
    | ok o => exact hr.milestones_of_ok
    | error stop =>
      obtain ⟨hs, he⟩ := hr.milestones_of_error
      rw [he]
      exact .failed hs

private theorem Ending.inTurn {o : Outcome} {es : List Event} {typesetting : Bool}
    {result? : Option ToolOutput} (h : c.Ending t o es typesetting result?) :
    c.InTurn (milestones es) := by
  cases h with
  | reported h => exact h.inTurn
  | stopped h =>
    rw [milestones_append, stopStory, ← List.singleton_append, milestones_append,
      milestones_error, List.append_nil, show milestones [.entered .reporting] = [] from rfl,
      List.append_nil]
    exact h.inTurn

private theorem inTurn_of_run (past : List Event) :
    c.InTurn (milestones (c.run past { tree := t }).events) := by
  obtain ⟨-, hs, -⟩ := run_eq_some (c := c) (a := { tree := t }) rfl past
  obtain ⟨he, -⟩ := meets_carryOut (c := c) (t := t) past
  rw [← milestones_story, hs, milestones_append, show milestones [.entered .finished] = [] from rfl,
    List.append_nil]
  exact he.inTurn

/-! ### Before the report -/

variable (c) in
/-- Takes the document to the end of the toolchain. Gives the TeX program, the TeX document and
its concordance. -/
def prepare : Stage (Path × Path × Concordance) := do
  let (directives, program) ← c.validate
  let concordance ← c.weaveLiterate directives
  let tex ← c.typeset program
  return (program, tex, concordance)

variable (c) in
/-- Turns a stop into an outcome. -/
def settle : Except Stop Outcome → Work Event Attempt Outcome
  | .ok outcome => return outcome
  | .error stop => c.fail stop

variable (c) in
/-- Reports the end of the toolchain, or the stop before it. -/
def conclude : Except Stop (Path × Path × Concordance) → Work Event Attempt Outcome
  | .ok (program, tex, concordance) => (c.report program tex concordance).run >>= c.settle
  | .error stop => c.fail stop

private theorem attempt_eq : c.attempt = c.prepare.run >>= c.conclude := by
  have hattempt : c.attempt = c.pipeline.run >>= c.settle := rfl
  have hpipeline : c.pipeline = c.prepare >>= fun x => c.report x.1 x.2.1 x.2.2 := by
    simp [pipeline, prepare]
  have hrun : c.pipeline.run =
      c.prepare.run >>= ExceptT.bindCont fun x => c.report x.1 x.2.1 x.2.2 := by
    rw [hpipeline]
    rfl
  rw [hattempt, hrun, bind_assoc]
  refine bind_congr fun r => ?_
  cases r with
  | ok x => rfl
  | error stop => exact pure_bind ..

/-- Whether the collaborators of a compilation do the same whatever was logged, and only those
that come before the report change the tree. -/
structure Impartial (c : Compilation) : Prop where
  weaver : ∀ directives, Work.Heeds Note.deed? (c.weaver c.target directives).run
  probe : ∀ program, Work.Heeds Note.deed? (c.probe program).run
  driver : ∀ {t d}, c.driver t = .ok d →
    ∀ tex options, Work.Heeds Note.deed? (d.run tex options).run
  viewer : ∀ pdf past t, ((c.viewer pdf).run past t).state = t
  publisher : ∀ name past t, ((c.publisher name).run past t).state = t
  /-- The cleanup does not depend on what the viewer or the publisher did. -/
  cleaner : ∀ cleanup past past', (c.cleaner cleanup).run past = (c.cleaner cleanup).run past'

private theorem Impartial.heeds_prepare (h : c.Impartial) : Heeds Note.deed? c.prepare.run := by
  refine heeds_stage_bind heeds_validate fun x => ?_
  refine heeds_stage_bind (heeds_weaveLiterate (h.weaver _)) fun concordance => ?_
  exact heeds_stage_bind (heeds_typeset (h.probe _) h.driver) fun _ => heeds_stage_pure _

/-! ### The report -/

variable {a : Attempt} {past : List Event}

variable (c) in
/-- Whether a run with the outcome `o` shows `common`, and behind it an error at most, which tells
that the viewer or the publisher of a success failed. -/
def TellsOf (o : Outcome) (common shown : List ProgressLine) : Prop :=
  shown = common ∨ o.kind = .success ∧ ∃ e, c.CompletionFails (pdfPath c.target) e ∧
    shown = common ++ [.error (c.completionFailure (pdfPath c.target) e)]

/-- The viewer and the publisher show nothing, and whatever they raise is a failure. -/
private theorem Impartial.leads_complete (h : c.Impartial) {pdf : Path} :
    Leads (c.complete pdf).run past a fun r es a' =>
      (∀ e, r = .error e → c.CompletionFails pdf e) ∧ es.filterMap Event.shown? = [] ∧ a' = a := by
  have silent (notes : List Note) : (notes.map Event.note).filterMap Event.shown? = [] := by
    rw [List.filterMap_map, List.filterMap_eq_nil_iff]
    exact fun _ _ => rfl
  rw [complete]
  cases hc : c.completion with
  | none => exact leads_stage_pure ⟨by simp, rfl, rfl⟩
  | view =>
    refine leads_lift_bind (leads_record (leads_chore ?_))
    refine ⟨fun e he => .viewer hc ⟨_, _, he⟩, ?_, ?_⟩
    · rw [List.filterMap_append, silent]
      rfl
    · rw [h.viewer]
  | publish =>
    cases hh : c.home with
    | none =>
      refine leads_throw ⟨fun e he => ?_, rfl, rfl⟩
      obtain rfl := Except.error.inj he
      exact .homeless hc hh
    | some home =>
      refine leads_lift_bind (leads_record (leads_chore ?_))
      refine ⟨fun e he => .publisher hc hh ⟨_, _, he⟩, ?_, ?_⟩
      · rw [List.filterMap_append, silent]
        rfl
      · rw [h.publisher]

private theorem Impartial.leads_succeed (h : c.Impartial) {result : ToolOutput} :
    Leads (c.succeed result) past a fun o es a' => o = c.successOutcome result ∧
      c.TellsOf o [.plain "completed\n"] (es.filterMap Event.shown?) ∧ a' = a := by
  refine leads_bind (leads_record (leads_bind (leads_bind (h.leads_complete.imp ?_))))
  rintro (e | _) es _ ⟨hr, hs, rfl⟩
  · refine leads_bind (leads_chore (leads_log (leads_record (leads_pure ⟨rfl, ?_, rfl⟩))))
    refine .inr ⟨rfl, e, hr e rfl, ?_⟩
    simp only [List.filterMap_append, hs]
    rfl
  · refine leads_pure (leads_pure ⟨rfl, .inl ?_, rfl⟩)
    simp only [List.filterMap_append, hs]
    rfl

private theorem Impartial.leads_conclude (h : c.Impartial) {x : Path × Path × Concordance}
    (hs : (a.result.getD {}).status = 0) : Leads (c.conclude (.ok x)) past a fun o es a' =>
      o = c.successOutcome (a.result.getD {}) ∧
        c.TellsOf o [.plain "completed\n"] (es.filterMap Event.shown?) ∧
          a' = { a with phase := .reporting } := by
  refine leads_bind (leads_lift_bind (leads_enter fun m => leads_lift_bind (leads_current ?_)))
  simp only [if_pos hs]
  refine leads_lift (h.leads_succeed.imp ?_)
  rintro o es _ ⟨rfl, ht, rfl⟩
  refine leads_pure ⟨rfl, ?_, rfl⟩
  rw [List.append_nil, List.nil_append, List.filterMap_append]
  exact ht

variable (c) in
/-- Reports a toolchain that failed. -/
def reportFailure (program tex : Path) (concordance : Concordance) (result : ToolOutput) :
    Work Event Attempt Outcome :=
  (do
    c.enter .reporting
    c.diagnose program tex concordance result : Stage Outcome).run >>= c.settle

private theorem heeds_reportFailure {κ : Type} {view : Note → Option κ} (program tex : Path)
    (concordance : Concordance) (result : ToolOutput) :
    Heeds view (c.reportFailure program tex concordance result) := by
  refine heeds_bind (heeds_lift_bind (heeds_enter _) fun _ => heeds_diagnose _ _ _ _) fun r => ?_
  cases r with
  | ok outcome => exact heeds_pure _
  | error stop => exact heeds_fail stop

private theorem conclude_eq_reportFailure {program tex : Path} {concordance : Concordance}
    (hs : (a.result.getD {}).status ≠ 0) :
    c.conclude (.ok (program, tex, concordance)) past a =
      c.reportFailure program tex concordance (a.result.getD {}) past a := by
  have hresult : (c.enter .reporting past a).state.result = a.result := rfl
  have hreport : (c.report program tex concordance).run past a = (do
      c.enter .reporting
      c.diagnose program tex concordance (a.result.getD {}) : Stage Outcome).run past a := by
    simp only [report, current, run_bind_apply, run_liftM_apply, look_apply, hresult, if_neg hs,
      List.append_nil, List.nil_append]
  rw [conclude, reportFailure, bind_apply, bind_apply, hreport]

variable (c) in
/-- The compilation with something else to be done with the PDF. -/
def withCompletion (completion : Completion) : Compilation := { c with completion }

/-- A failure is reported in one way, whatever was to be done with the PDF and whatever came
before. -/
private theorem conclude_of_failed (completion completion' : Completion) (past past' : List Event)
    {r : Except Stop (Path × Path × Concordance)}
    (hs : ∀ x, r = .ok x → (a.result.getD {}).status ≠ 0) :
    (c.withCompletion completion).conclude r past a =
      (c.withCompletion completion').conclude r past' a := by
  cases r with
  | error stop => exact congrFun (Heeds.anywhere (heeds_fail (c := c) stop) past past') a
  | ok x =>
    obtain ⟨program, tex, concordance⟩ := x
    rw [conclude_eq_reportFailure (hs _ rfl), conclude_eq_reportFailure (hs _ rfl)]
    exact congrFun (Heeds.anywhere (heeds_reportFailure (c := c) _ _ _ _) past past') a

/-! ### The whole -/

private theorem TellsOf.append_left {o : Outcome} {common shown : List ProgressLine}
    (h : c.TellsOf o common shown) (before : List ProgressLine) :
    c.TellsOf o (before ++ common) (before ++ shown) := by
  obtain rfl | ⟨hk, e, he, rfl⟩ := h
  · exact .inl rfl
  · exact .inr ⟨hk, e, he, (List.append_assoc ..).symm⟩

private theorem logAll_apply (ms : List Message) (past : List Event) (a : Attempt) :
    logAll ms past a = ⟨(), ms.map fun m => .note (.logged m), a⟩ := by
  induction ms generalizing past with
  | nil => rfl
  | cons m rest ih => simp [logAll, record, bind_apply, ih]

private theorem Impartial.withCompletion (h : c.Impartial) (completion : Completion) :
    (c.withCompletion completion).Impartial :=
  ⟨h.weaver, h.probe, h.driver, h.viewer, h.publisher, h.cleaner⟩

/-- Behind what the toolchain left, every completion comes to the same end. -/
private theorem Impartial.exists_conclude (h : c.Impartial)
    (r : Except Stop (Path × Path × Concordance)) (a : Attempt) : ∃ o b common, ∀ completion past,
      Leads ((c.withCompletion completion).conclude r) past a fun o' es b' =>
        o' = o ∧ b' = b ∧
          (c.withCompletion completion).TellsOf o common (es.filterMap Event.shown?) := by
  by_cases hs : (∃ x, r = .ok x) ∧ (a.result.getD {}).status = 0
  · obtain ⟨⟨x, rfl⟩, hs⟩ := hs
    refine ⟨c.successOutcome (a.result.getD {}), { a with phase := .reporting },
      [.plain "completed\n"], fun completion past => ?_⟩
    refine ((h.withCompletion completion).leads_conclude hs).imp ?_
    rintro o es b ⟨rfl, ht, hb⟩
    exact ⟨rfl, hb, ht⟩
  · have hfailed : ∀ x, r = .ok x → (a.result.getD {}).status ≠ 0 :=
      fun x hr h0 => hs ⟨⟨x, hr⟩, h0⟩
    let d := c.conclude r [] a
    refine ⟨d.result, d.state, d.events.filterMap Event.shown?, fun completion past => ?_⟩
    rw [Leads, conclude_of_failed completion c.completion past [] hfailed]
    exact ⟨rfl, rfl, .inl rfl⟩

private theorem Impartial.exists_carryOut (h : c.Impartial) (past : List Event) (a : Attempt) :
    ∃ o b common, ∀ completion, Leads (c.withCompletion completion).carryOut past a fun o' es b' =>
      o' = o ∧ b' = b ∧
        (c.withCompletion completion).TellsOf o common (es.filterMap Event.shown?) := by
  obtain ⟨o, b, common, hend⟩ :=
    h.exists_conclude (c.prepare.run past a).result (c.prepare.run past a).state
  refine ⟨o, b, (c.prepare.run past a).events.filterMap Event.shown? ++ common,
    fun completion => ?_⟩
  -- the completion is logged before the document is prepared, and messages are not heeded
  let d := c.withCompletion completion
  let logged : List Event :=
    (startMessages d.target d.completion.text).map fun m => .note (.logged m)
  have hheeded : logged.filterMap (Event.through Note.deed?) = [] := by
    simp [logged, List.filterMap_map, Event.through, Event.note?, Note.deed?]
  have hshown : logged.filterMap Event.shown? = [] := by
    simp [logged, List.filterMap_map, Event.shown?]
  have hprepare : (c.withCompletion completion).prepare.run (past ++ logged) = c.prepare.run past :=
    h.heeds_prepare _ _ (by rw [List.filterMap_append, hheeded, List.append_nil])
  rw [Compilation.carryOut, attempt_eq]
  refine leads_bind ?_
  rw [Leads, logAll_apply]
  refine leads_bind ?_
  rw [Leads, hprepare]
  refine (hend completion _).imp ?_
  rintro o' es b' ⟨rfl, rfl, ht⟩
  refine ⟨rfl, rfl, ?_⟩
  rw [List.filterMap_append, hshown, List.filterMap_append]
  exact ht.append_left _

private theorem Impartial.exists_run (h : c.Impartial) (past : List Event) (t : Tree) :
    ∃ o t' common, ∀ completion,
      Leads (c.withCompletion completion).run past { tree := t } fun r es a =>
        r = some o ∧ a.tree = t' ∧
          (c.withCompletion completion).TellsOf o common (es.filterMap Event.shown?) := by
  obtain ⟨o, b, common, hend⟩ := h.exists_carryOut past { tree := t }
  refine ⟨o, ((c.cleaner b.cleanup).run [] b.tree).state, common, fun completion => ?_⟩
  have shown (events : List Event) :
      (story events).filterMap Event.shown? = events.filterMap Event.shown? := by
    rw [← shown?_telling, telling_story, shown?_telling]
  obtain ⟨hr, hs, past', ht⟩ :=
    run_eq_some (c := c.withCompletion completion) (a := { tree := t }) rfl past
  obtain ⟨ho, hb, htold⟩ := hend completion
  refine ⟨hr.trans (congrArg some ho), ?_, ?_⟩
  · rw [ht, hb]
    exact congrArg Done.state (congrFun (h.cleaner b.cleanup past' []) b.tree)
  · rw [← shown, hs, List.filterMap_append, shown,
      show [Event.entered .finished].filterMap Event.shown? = [] from rfl, List.append_nil]
    exact htold

/-- **What is done with the PDF does not interfere with the compilation.** In every run the viewer
or the publisher is called once at most, with the PDF next to the document, and only when the driver
succeeded and this was shown. With impartial collaborators, where the viewer and the publisher may
fail but leave the tree, runs have the same outcome whatever is to be done with the PDF. They end
with the same tree and show the same, but for an error at the end that tells of a failure. -/
theorem completion_of_run (c : Compilation) (past : List Event) (t : Tree) :
    c.InTurn (milestones (c.run past { tree := t }).events) ∧
      (c.Impartial → ∃ o t' common, ∀ completion,
        let d := (c.withCompletion completion).run past { tree := t }
        d.result = some o ∧ d.state.tree = t' ∧
          (c.withCompletion completion).TellsOf o common (d.events.filterMap Event.shown?)) :=
  ⟨inTurn_of_run past, fun h => h.exists_run past t⟩

/-! ### On a host -/

/-- On a host only the viewer could be partial. -/
theorem impartial_onHost (host : Host) (programs : Programs)
    {viewer : Path → ExceptT Crash (Work Note Tree) Unit}
    (hviewer : ∀ pdf past t, ((viewer pdf).run past t).state = t) (document : String)
    (completion : Completion) (settings : Settings) :
    (onHost host programs viewer document completion settings).Impartial where
  weaver directives :=
    (heeds_adapt _ (Weaver.heeds_viaR host programs settings _ directives)).mono Note.start?_deed
  probe program := (heeds_adapt _ (Toolchain.heeds_probeVersion programs program)).mono
    Note.start?_deed
  driver hd tex o := by
    cases hd
    exact (heeds_adapt _ (Toolchain.Choice.heeds_run _ host programs _ tex o)).mono Note.start?_deed
  viewer := hviewer
  publisher _ _ _ := rfl
  cleaner cleanup := by
    have hnothing : Work.Heeds (fun _ => (none : Option Unit))
        (Cleanup.cleaner host.here cleanup).run := Cleanup.heeds_cleaner host.here cleanup
    exact hnothing.anywhere fun _ => rfl

/-- A viewer without a display. -/
def blindViewer (_ : Path) : ExceptT Crash (Work Note Tree) Unit := throw (.other "no display")

/-- A compilation of the document where the PDF cannot be viewed. -/
def unseen : Compilation :=
  onHost rootHost (.ofRuns (idleRuns fun _ => .exited 0 [] []) rootHost.here) blindViewer "r.tex"
    .none {}

/-- The PDF cannot be viewed, and all that there is of this is one line. -/
theorem completion_of_run_unseen :
    unseen.Impartial ∧
      (∃ o, ((unseen.withCompletion .view).run [] { tree := swept }).result = some o ∧
        ((unseen.withCompletion .none).run [] { tree := swept }).result = some o) ∧
      ((unseen.withCompletion .view).run [] { tree := swept }).state.tree =
        ((unseen.withCompletion .none).run [] { tree := swept }).state.tree ∧
      ((unseen.withCompletion .view).run [] { tree := swept }).events.filterMap Event.shown? =
        ((unseen.withCompletion .none).run [] { tree := swept }).events.filterMap Event.shown? ++
          [.error "Unable to view r.pdf: no display\n"] := by
  have himpartial : unseen.Impartial := impartial_onHost _ _ (fun _ _ _ => rfl) _ _ _
  obtain ⟨-, hruns⟩ := completion_of_run unseen [] swept
  obtain ⟨o, t', common, hrun⟩ := hruns himpartial
  have hview := hrun .view
  have hnone := hrun .none
  refine ⟨himpartial, ⟨o, hview.1, hnone.1⟩, hview.2.1.trans hnone.2.1.symm, ?_⟩
  decide +kernel

end Compilation

end Galley
