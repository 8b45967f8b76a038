import Galley.Compile.Default
import Galley.Proofs.Toolchain.Discreet

/-!
# What stages heed

The stages of a compilation look at the attempt, and at the events before them only through their
collaborators. So a stage heeds no more of the notes than the collaborators that it calls
(`heeds_prepare`), and one that calls none heeds nothing (`heeds_diagnose`, `heeds_fail`).
-/

namespace Galley

open Work

variable {κ : Type} {view : Note → Option κ}

/-- What a view of notes shows of an event. -/
def Event.through (view : Note → Option κ) (e : Event) : Option κ := e.note?.bind view

/-! ### Chores that heed nothing -/

theorem heeds_removeStaleLogs (here tex : Path) : Heeds view (removeStaleLogs here tex) := by
  have one (p : Path) : Heeds view (removeStaleLog here p) := by
    refine heeds_bind Chore.heeds_tree fun t => ?_
    split
    · exact heeds_bind (heeds_change _) fun _ => Chore.heeds_log _ _
    · exact heeds_pure _
    · exact Chore.heeds_log _ _
  exact heeds_bind (one _) fun _ => one _

private theorem Diagnostics.heeds_collect (here tex : Path) (concordance : Concordance) :
    Heeds view (collect here tex concordance) := by
  have entries (p : Path) (load : Tree → Path → Path → Except LogError (List Entry)) :
      Heeds view (readEntries here p load) := by
    refine heeds_bind Chore.heeds_tree fun t => ?_
    split
    · exact heeds_pure _
    · split
      · exact heeds_pure _
      · exact heeds_bind (Chore.heeds_log _ _) fun _ => heeds_pure _
  refine heeds_bind (entries _ _) fun _ => ?_
  split
  · exact heeds_pure _
  · exact heeds_bind (entries _ _) fun _ => heeds_pure _

namespace Cleanup

private theorem heeds_removeByproducts (here base : Path) (removed suffixes : List String) :
    Heeds view (removeByproducts here base removed suffixes) := by
  have one (suffix : String) : Heeds view (removeByproduct here base suffix).run := by
    rw [removeByproduct]
    split
    · exact heeds_throw _
    · refine heeds_lift_bind Chore.heeds_tree fun t => ?_
      split
      · exact heeds_lift_bind (heeds_change _) fun _ => heeds_stage_pure _
      · exact heeds_stage_pure _
      · exact heeds_lift_bind (Chore.heeds_log _ _) fun _ => heeds_stage_pure _
  induction suffixes generalizing removed with
  | nil => exact heeds_pure _
  | cons suffix rest ih =>
    refine heeds_bind (one suffix) fun r => ?_
    cases r with
    | ok names => exact ih _
    | error e => exact heeds_pure _

theorem heeds_cleaner (here : Path) (cleanup : Cleanup) :
    Heeds view (cleaner here cleanup).run := by
  refine heeds_lift_bind ?_ fun _ => heeds_stage_pure _
  rw [run]
  split
  · exact heeds_pure _
  · next base _ =>
    refine heeds_bind Chore.heeds_tree fun t => ?_
    refine heeds_bind (heeds_removeByproducts _ _ _ _) fun done => ?_
    obtain ⟨removed, complete⟩ := done
    have told : Heeds view (do
        if removed ≠ [] then
          Chore.log .debug ("Cleaned up: " ++ ", ".intercalate removed)
        return (removed, { cleanup with base := none }) : Chore (List String × Cleanup)) := by
      split
      · exact heeds_bind (Chore.heeds_log _ _) fun _ => heeds_pure _
      · exact heeds_pure _
    dsimp only
    split
    · exact heeds_bind (Chore.heeds_log _ _) fun _ => told
    · exact told

end Cleanup

/-! ### Collaborators of a host -/

theorem Weaver.heeds_viaR (host : Host) (programs : Programs) (s : Settings) (target : Path)
    (d : Directives) : Heeds Note.start? (viaR host programs s target d).run := by
  have collected : Heeds Note.start? (collect host.here target).run := by
    refine heeds_lift_bind Chore.heeds_tree fun t => ?_
    split
    · exact heeds_stage_pure _
    · split
      · exact heeds_stage_pure _
      · exact heeds_throw _
      · exact heeds_lift_bind (Chore.heeds_logWeaving _ _) fun _ => heeds_stage_pure _
  rw [viaR]
  split
  · exact heeds_stage_pure _
  refine heeds_lift_bind Chore.heeds_tree fun t => ?_
  split
  · exact heeds_stage_pure _
  refine heeds_lift_bind (Chore.heeds_logWeaving _ _) fun _ => ?_
  refine heeds_lift_bind (Chore.heeds_logWeaving _ _) fun _ => ?_
  refine heeds_lift_bind (Chore.heeds_start _ _) fun ending => ?_
  split
  · exact heeds_stage_pure _
  · exact heeds_throw _
  · split
    · exact collected
    · refine heeds_lift_bind (Chore.heeds_logWeaving _ _) fun _ => ?_
      dsimp only
      split
      · exact heeds_stage_pure _
      · exact heeds_stage_pure _

theorem Toolchain.heeds_probeVersion (programs : Programs) (program : Path) :
    Heeds Note.start? (probeVersion programs program).run := by
  refine heeds_lift_bind (heeds_runProgram _ _) fun r => ?_
  split
  · split
    · exact heeds_throw _
    · exact heeds_stage_pure _
  · exact heeds_throw _
  · exact heeds_throw _

theorem heeds_logPublisher (name : String) : Heeds view (logPublisher name).run :=
  heeds_lift (Chore.heeds_log _ _)

namespace Compilation

variable {α β : Type} {c : Compilation}

/-- Whether a stage heeds no more of the notes before it than a view shows. -/
abbrev Heeds (view : Note → Option κ) (w : Work Event Attempt α) : Prop :=
  Work.Heeds (Event.through view) w

/-- A stage that heeds no notes is the same behind any events. -/
theorem Heeds.anywhere {w : Work Event Attempt α} (h : Heeds (fun _ => (none : Option Unit)) w)
    (past past' : List Event) : w past = w past' :=
  Work.Heeds.anywhere h (fun e => Option.bind_fun_none e.note?) past past'

/-! ### Steps -/

theorem heeds_chore {w : Chore α} (hw : Work.Heeds view w) : Heeds view (chore w) := by
  intro past past' hp
  funext a
  have hnotes : (past.filterMap Event.note?).filterMap view =
      (past'.filterMap Event.note?).filterMap view := by
    rw [List.filterMap_filterMap, List.filterMap_filterMap]
    exact hp
  simp only [chore, within_apply, hw _ _ hnotes]

private theorem heeds_log (level : Level) (text : String) : Heeds view (log level text) :=
  heeds_chore (Chore.heeds_log level text)

theorem heeds_logAll (ms : List Message) : Heeds view (logAll ms) := by
  induction ms with
  | nil => exact heeds_pure _
  | cons m rest ih => exact heeds_bind (heeds_emit _) fun _ => ih

private theorem heeds_displayAll (lines : List ProgressLine) : Heeds view (displayAll lines) := by
  induction lines with
  | nil => exact heeds_pure _
  | cons line rest ih => exact heeds_bind (heeds_emit _) fun _ => ih

theorem heeds_enter (phase : Phase) : Heeds view (c.enter phase) :=
  heeds_bind heeds_look fun _ => heeds_bind (heeds_log _ _) fun _ =>
    heeds_bind (heeds_change _) fun _ => heeds_emit _

private theorem heeds_accept (role : Role) (r : Except Stop α) :
    Heeds view (Stage.accept role r).run := by
  cases r with
  | ok x => exact heeds_stage_pure x
  | error stop => exact heeds_lift_bind (heeds_emit _) fun _ => heeds_throw stop

/-- Nothing comes behind a collaborator that raised an error. -/
private theorem heeds_accept_bind {role : Role} {r : Except Stop α} {f : α → Stage β}
    (hf : ∀ x, r = .ok x → Heeds view (f x).run) :
    Heeds view (Stage.accept role r >>= f).run := by
  cases r with
  | ok x =>
    change Heeds view (pure x >>= f : Stage β).run
    rw [pure_bind]
    exact hf x rfl
  | error stop => exact fun _ _ _ => rfl

private theorem heeds_call (role : Role) {w : ExceptT Stop (Work Note Tree) α}
    (hw : Work.Heeds view w.run) : Heeds view (Stage.call role w).run :=
  heeds_lift_bind (heeds_chore hw) fun r => heeds_accept role r

/-! ### Up to the driver -/

theorem heeds_validate : Heeds view c.validate.run := by
  have checked : Heeds view c.checkTarget.run := by
    refine heeds_lift_bind heeds_look fun a => ?_
    split
    · exact heeds_throw _
    · exact heeds_stage_pure _
  have read : Heeds view c.readDirectives := by
    refine heeds_bind heeds_look fun a => ?_
    split
    · exact heeds_pure _
    · exact heeds_bind (heeds_log _ _) fun _ => heeds_pure _
  have program (directives : Directives) : Heeds view (c.chooseProgram directives).run := by
    rw [chooseProgram]
    split
    · exact heeds_throw _
    · refine heeds_lift_bind heeds_look fun a => ?_
      refine heeds_stage_bind (heeds_accept _ _) fun found => ?_
      split
      · exact heeds_throw _
      · exact heeds_lift_bind (heeds_log _ _) fun _ => heeds_stage_pure _
  have chosen : Heeds view (do
      let directives ← liftM c.readDirectives
      let program ← c.chooseProgram directives
      return (directives, program) : Stage _).run :=
    heeds_lift_bind read fun directives =>
      heeds_stage_bind (program directives) fun _ => heeds_stage_pure _
  refine heeds_lift_bind (heeds_enter _) fun _ => heeds_stage_bind checked fun _ => ?_
  split
  · exact heeds_lift_bind (heeds_change _) fun _ => chosen
  · exact chosen

theorem heeds_weaveLiterate {directives : Directives}
    (hw : Work.Heeds view (c.weaver c.target directives).run) :
    Heeds view (c.weaveLiterate directives).run := by
  rw [weaveLiterate]
  split
  · refine heeds_lift_bind (heeds_enter _) fun _ => ?_
    refine heeds_stage_bind (heeds_call _ hw) fun result => ?_
    refine heeds_lift_bind (heeds_emit _) fun _ => ?_
    cases result with
    | woven tex concordance => exact heeds_stage_pure _
    | failed reason => exact heeds_throw _
  · exact heeds_stage_pure _

theorem heeds_probeVersion {program : Path} (hp : Work.Heeds view (c.probe program).run) :
    Heeds view (c.probeVersion program).run := by
  refine heeds_lift_bind (heeds_chore hp) fun r => ?_
  cases r with
  | ok version => exact heeds_lift_bind (heeds_log _ _) fun _ => heeds_stage_pure _
  | error stop =>
    refine heeds_lift_bind (heeds_emit _) fun _ => ?_
    cases stop with
    | version message =>
      refine heeds_lift_bind (heeds_log _ _) fun _ => ?_
      exact heeds_lift_bind (heeds_emit _) fun _ => heeds_stage_pure _
    | _ => exact heeds_throw _

theorem heeds_drive {tex : Path} {options : TexOptions}
    (hd : ∀ {t d}, c.driver t = .ok d → Work.Heeds view (d.run tex options).run) :
    Heeds view (c.drive tex options).run := by
  refine heeds_lift_bind heeds_look fun a => heeds_accept_bind fun driver hdriver => ?_
  refine heeds_lift_bind (heeds_log _ _) fun _ => heeds_lift_bind (heeds_emit _) fun _ => ?_
  refine heeds_stage_bind (heeds_call _ (hd hdriver)) fun result => ?_
  exact heeds_lift_bind (heeds_emit _) fun _ => heeds_lift (heeds_change _)

theorem heeds_typeset {program : Path} (hp : Work.Heeds view (c.probe program).run)
    (hd : ∀ {t d}, c.driver t = .ok d → ∀ tex options, Work.Heeds view (d.run tex options).run) :
    Heeds view (c.typeset program).run := by
  refine heeds_lift_bind (heeds_enter _) fun _ => heeds_lift_bind (heeds_change _) fun _ => ?_
  refine heeds_stage_bind (heeds_probeVersion hp) fun version => ?_
  refine heeds_lift_bind (heeds_chore (heeds_removeStaleLogs _ _)) fun _ => ?_
  exact heeds_stage_bind (heeds_drive fun h => hd h _ _) fun _ => heeds_stage_pure _

/-! ### Reporting -/

private theorem heeds_runCompletion {pdf : Path} (hv : Work.Heeds view (c.viewer pdf).run)
    (hp : ∀ name, Work.Heeds view (c.publisher name).run) :
    Heeds view (c.runCompletion pdf) := by
  have complete : Heeds view (c.complete pdf).run := by
    rw [Compilation.complete]
    split
    · exact heeds_stage_pure ()
    · exact heeds_lift_bind (heeds_emit _) fun _ => heeds_chore hv
    · split
      · exact heeds_throw _
      · exact heeds_lift_bind (heeds_emit _) fun _ => heeds_chore (hp _)
  refine heeds_bind complete fun r => ?_
  cases r with
  | ok => exact heeds_pure ()
  | error e => exact heeds_bind (heeds_log _ _) fun _ => heeds_emit _

theorem heeds_diagnose (program tex : Path) (concordance : Concordance) (result : ToolOutput) :
    Heeds view (c.diagnose program tex concordance result).run := by
  refine heeds_lift_bind (heeds_emit _) fun _ => heeds_lift_bind (heeds_change _) fun _ => ?_
  refine heeds_lift_bind (heeds_chore (Diagnostics.heeds_collect _ _ _)) fun collected => ?_
  cases collected with
  | error e => exact heeds_lift_bind (heeds_emit _) fun _ => heeds_throw _
  | ok diagnostics =>
    refine heeds_lift_bind (heeds_emit _) fun _ => heeds_lift_bind (heeds_displayAll _) fun _ => ?_
    split
    · exact heeds_throw _
    · exact heeds_throw _
    · split
      · exact heeds_stage_pure _
      · exact heeds_throw _

theorem heeds_report {program tex : Path} {concordance : Concordance}
    (hv : Work.Heeds view (c.viewer (pdfPath c.target)).run)
    (hp : ∀ name, Work.Heeds view (c.publisher name).run) :
    Heeds view (c.report program tex concordance).run := by
  refine heeds_lift_bind (heeds_enter _) fun _ => heeds_lift_bind heeds_look fun a => ?_
  dsimp only
  split
  · refine heeds_lift (heeds_bind (heeds_emit _) fun _ => ?_)
    exact heeds_bind (heeds_runCompletion hv hp) fun _ => heeds_pure _
  · exact heeds_diagnose _ _ _ _

theorem heeds_fail (stop : Stop) : Heeds view (c.fail stop) := by
  have told : Heeds view (do
      c.enter .reporting
      let a ← current
      if a.typesetting then keepLogs
      display (.error (stop.message ++ "\n"))
      return stop.outcome a.result) := by
    refine heeds_bind (heeds_enter _) fun _ => heeds_bind heeds_look fun a => ?_
    have shown : Heeds view (do
        display (.error (stop.message ++ "\n"))
        return stop.outcome a.result) := heeds_bind (heeds_emit _) fun _ => heeds_pure _
    dsimp only
    split
    · exact heeds_bind (heeds_change _) fun _ => shown
    · exact shown
  cases stop with
  | crash e => exact heeds_bind (heeds_log _ _) fun _ => told
  | _ => exact told

/-! ### The end -/

theorem heeds_finish (hc : ∀ cleanup, Work.Heeds view (c.cleaner cleanup).run) :
    Heeds view c.finish := by
  refine heeds_bind (heeds_enter _) fun _ => heeds_bind heeds_look fun a => ?_
  refine heeds_bind (heeds_chore (hc _)) fun r => ?_
  cases r with
  | ok cleanup => exact heeds_change _
  | error e => exact heeds_log _ _

end Compilation

end Galley
