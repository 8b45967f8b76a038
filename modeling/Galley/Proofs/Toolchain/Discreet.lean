import Galley.Proofs.Work.Heeds
import Galley.Toolchain.Driver

/-!
# Discreet drivers

A driver heeds nothing of what happened before it but the starts of programs, and those only
through the programs that it starts itself: `Choice.heeds_run`, put together from one lemma for
each part of a driver. So, started on one tree, it does the same whatever was logged before and
whatever the trees of earlier starts were like: `Choice.discreet_run`.
-/

namespace Galley.Toolchain

open Chore Work

theorem respects_runProgram {R : Tree → Tree → Prop} {programs : Programs} {s : Start}
    (h : Chore.Respects R (start programs.text s)) :
    Chore.Respects R (runProgram programs s).run := by
  refine respects_lift_bind (respects_log _ _) fun _ => respects_lift_bind h fun ending => ?_
  cases ending with
  | exited status output errors => exact respects_stage_pure _
  | refused reason | broken message => exact respects_throw _

theorem heeds_runProgram (programs : Programs) (s : Start) :
    Heeds Note.start? (runProgram programs s).run := by
  refine heeds_lift_bind (heeds_log _ _) fun _ => heeds_lift_bind (heeds_start _ s) fun ending => ?_
  cases ending with
  | exited status output errors => exact heeds_stage_pure _
  | refused reason | broken message => exact heeds_throw _

namespace Emulation

variable (e : Emulation)

private theorem heeds_readText (p : Path) : Heeds Note.start? (e.readText p).run := by
  refine heeds_lift_bind heeds_tree fun t => ?_
  cases t.read e.here p with
  | ok content => exact heeds_stage_pure _
  | error error => exact heeds_throw _

private theorem heeds_needsBibtex (aux : Path) : Heeds Note.start? (e.needsBibtex aux).run := by
  refine heeds_lift_bind heeds_tree fun t => ?_
  split
  · exact heeds_stage_bind (e.heeds_readText aux) fun _ => heeds_stage_pure _
  · exact heeds_stage_pure _

private theorem heeds_needsMakeindex (idx : Path) : Heeds Note.start? (e.needsMakeindex idx).run :=
  heeds_lift_bind heeds_tree fun _ => heeds_stage_pure _

private theorem heeds_needsRerun (log : Path) : Heeds Note.start? (e.needsRerun log).run := by
  refine heeds_lift_bind heeds_tree fun t => ?_
  split
  · exact heeds_stage_bind (e.heeds_readText log) fun _ => heeds_stage_pure _
  · exact heeds_stage_pure _

variable {pass : ToolWork ToolOutput}

private theorem heeds_furtherPasses (hp : Heeds Note.start? pass.run) (log : Path)
    (allowed pending : Nat) (soFar : ToolOutput × Nat) :
    Heeds Note.start? (e.furtherPasses pass log allowed pending soFar).run := by
  induction allowed generalizing pending soFar with
  | zero => exact heeds_stage_pure _
  | succ allowed ih =>
    obtain ⟨combined, passes⟩ := soFar
    have again : Heeds Note.start? (do
        let combined := combined.extend (← pass)
        if combined.status ≠ 0 then return (combined, passes + 1)
        e.furtherPasses pass log allowed (pending - 1) (combined, passes + 1) :
          ToolWork (ToolOutput × Nat)).run := by
      refine heeds_stage_bind hp fun result => ?_
      dsimp only
      split
      · exact heeds_stage_pure _
      · exact ih _ _
    rw [furtherPasses]
    split
    · refine heeds_stage_bind (e.heeds_needsRerun log) fun rerun => ?_
      cases rerun with
      | false => exact heeds_stage_pure _
      | true => exact again
    · exact again

private theorem heeds_settle (hp : Heeds Note.start? pass.run) (tex : Path) (pending : Nat)
    (combined : ToolOutput) : Heeds Note.start? (e.settle tex pass pending combined).run := by
  refine heeds_stage_bind (e.heeds_furtherPasses hp _ _ _ _) fun done => ?_
  exact heeds_lift_bind (heeds_log _ _) fun _ => heeds_stage_pure _

private theorem heeds_indexAndSettle (hp : Heeds Note.start? pass.run) (tex : Path) (pending : Nat)
    (combined : ToolOutput) :
    Heeds Note.start? (e.indexAndSettle tex pass pending combined).run := by
  refine heeds_stage_bind (e.heeds_needsMakeindex _) fun needed => ?_
  cases needed with
  | false => exact e.heeds_settle hp tex _ _
  | true =>
    refine heeds_stage_bind (heeds_runProgram _ _) fun result => ?_
    dsimp only
    split
    · exact heeds_stage_pure _
    · exact e.heeds_settle hp tex _ _

private theorem heeds_compile (tex : Path) (o : TexOptions) : Heeds Note.start?
    (e.compile tex o).run := by
  have hp := heeds_runProgram e.programs
    ⟨toString o.program :: o.arguments ++ [tex.name], some tex.parent, none⟩
  refine heeds_lift_bind (heeds_log _ _) fun _ => heeds_stage_bind hp fun first => ?_
  dsimp only
  split
  · exact heeds_stage_pure _
  refine heeds_stage_bind (e.heeds_needsBibtex _) fun needed => ?_
  cases needed with
  | false => exact e.heeds_indexAndSettle hp tex _ _
  | true =>
    refine heeds_stage_bind (heeds_runProgram _ _) fun result => ?_
    split
    · exact heeds_stage_pure _
    split
    · refine heeds_lift_bind (heeds_log _ _) fun _ => ?_
      exact e.heeds_indexAndSettle hp tex _ _
    · exact e.heeds_indexAndSettle hp tex _ _

end Emulation

theorem Choice.heeds_run (choice : Choice) (host : Host) (programs : Programs)
    (which : Tree → String → Option String) (tex : Path) (o : TexOptions) :
    Heeds Note.start? ((choice.driver host programs which).run tex o).run := by
  cases choice with
  | emulated maxPasses => exact Emulation.heeds_compile _ tex o
  | texi2dvi path =>
    exact heeds_lift_bind (heeds_log _ _) fun _ => heeds_runProgram _ _

/-- **Drivers are discreet.** -/
theorem Choice.discreet_run (choice : Choice) (host : Host) (programs : Programs)
    (which : Tree → String → Option String) (tex : Path) (o : TexOptions) :
    Discreet ((choice.driver host programs which).run tex o).run :=
  discreet_of_heeds (choice.heeds_run host programs which tex o)

end Galley.Toolchain
