import Galley.Compile.Default
import Galley.Proofs.Program.Replay
import Galley.Proofs.Toolchain.Schedule
import Galley.Proofs.Weaver

/-!
# What the collaborators of a host start

The drivers, the weaver and the version probe change the tree by the programs that they start and
in no other way, and what they start is a matter of the document's name, of the options and of what
is found on the host: `replayed_driver`, `replayed_viaR` and `replayed_probeVersion`. Nothing that a
program writes can add a start of another kind.
-/

namespace Galley

open Work

variable {host : Host} {programs : Programs} {right : Start → Tree → Prop}

namespace Toolchain

/-- The starts of the drivers. -/
inductive DriverStart (host : Host) (tex : Path) (o : TexOptions) : Start → Tree → Prop
  | pass (t : Tree) : DriverStart host tex o (Emulation.passStart tex o) t
  | bibtex (t : Tree) : DriverStart host tex o (Emulation.bibtexStart tex) t
  | makeindex (t : Tree) : DriverStart host tex o (Emulation.makeindexStart tex) t
  | texi2dvi {t : Tree} {path : String} (h : host.which t "texi2dvi" = some path) :
      DriverStart host tex o (texi2dviStart host path tex o) t

/-- A program that is run is started once, in the tree as it stands. -/
private theorem replays_runProgram {s : Start} {past : List Note} {t : Tree} (hs : right s t) :
    Leads (runProgram programs s).run past t fun _ notes t' =>
      Replays programs right past t notes t' := by
  refine leads_lift_bind (leads_log (leads_lift_bind (leads_start ?_)))
  split
  · exact leads_stage_pure (.logged (.text hs .nil))
  · exact leads_throw (.logged (.text hs .nil))
  · exact leads_throw (.logged (.text hs .nil))

private theorem replayed_runProgram {s : Start} (hs : ∀ t, right s t) :
    Replayed programs right (runProgram programs s).run :=
  fun _ t => replays_runProgram (hs t)

/-- The version is asked for by one start. -/
theorem replayed_probeVersion {program : Path}
    (hs : ∀ t, right ⟨[toString program, "--version"], none, none⟩ t) :
    Replayed programs right (probeVersion programs program).run := by
  refine replayed_lift_bind (replayed_runProgram hs) fun r => ?_
  rcases r with (_ | _) | result
  · exact replayed_throw _
  · exact replayed_throw _
  · dsimp only
    split
    · exact replayed_throw _
    · exact replayed_stage_pure _

namespace Emulation

variable {e : Emulation} {tex : Path} {o : TexOptions} {pass : ToolWork ToolOutput}

private theorem replayed_readText (p : Path) : Replayed programs right (e.readText p).run := by
  refine replayed_lift_bind replayed_tree fun t => ?_
  split
  · exact replayed_stage_pure _
  · exact replayed_throw _

private theorem replayed_needsBibtex (aux : Path) : Replayed programs right
    (e.needsBibtex aux).run := by
  refine replayed_lift_bind replayed_tree fun t => ?_
  split
  · exact replayed_stage_bind (replayed_readText aux) fun _ => replayed_stage_pure _
  · exact replayed_stage_pure _

private theorem replayed_needsMakeindex (idx : Path) :
    Replayed programs right (e.needsMakeindex idx).run :=
  replayed_lift_bind replayed_tree fun _ => replayed_stage_pure _

private theorem replayed_needsRerun (log : Path) : Replayed programs right (e.needsRerun log).run :=
    by
  refine replayed_lift_bind replayed_tree fun t => ?_
  split
  · exact replayed_stage_bind (replayed_readText log) fun _ => replayed_stage_pure _
  · exact replayed_stage_pure _

private theorem replayed_furtherPasses (hp : Replayed programs right pass.run) (log : Path)
    (allowed pending : Nat) (combined : ToolOutput × Nat) :
    Replayed programs right (e.furtherPasses pass log allowed pending combined).run := by
  -- the induction is on the passes that are still allowed
  induction allowed generalizing pending combined with
  | zero => exact replayed_stage_pure _
  | succ allowed ih =>
    have again (combined : ToolOutput) (passes : Nat) : Replayed programs right (do
        let combined := combined.extend (← pass)
        if combined.status ≠ 0 then return (combined, passes + 1)
        e.furtherPasses pass log allowed (pending - 1) (combined, passes + 1) :
          ToolWork (ToolOutput × Nat)).run := by
      refine replayed_stage_bind hp fun result => ?_
      dsimp only
      split
      · exact replayed_stage_pure _
      · exact ih _ _
    obtain ⟨combined, passes⟩ := combined
    rw [furtherPasses]
    split
    · refine replayed_stage_bind (replayed_needsRerun log) fun needed => ?_
      cases needed with
      | true => exact again _ _
      | false => exact replayed_stage_pure _
    · exact again _ _

private theorem replayed_settle (hp : Replayed programs right pass.run) (pending : Nat)
    (combined : ToolOutput) :
    Replayed programs right (e.settle tex pass pending combined).run :=
  replayed_stage_bind (replayed_furtherPasses hp _ _ _ _) fun _ =>
    replayed_lift_bind (replayed_log _ _) fun _ => replayed_stage_pure _

private theorem replayed_indexAndSettle (hp : Replayed e.programs right pass.run)
    (hm : ∀ t, right (makeindexStart tex) t) (pending : Nat) (combined : ToolOutput) :
    Replayed e.programs right (e.indexAndSettle tex pass pending combined).run := by
  refine replayed_stage_bind (replayed_needsMakeindex _) fun needed => ?_
  cases needed with
  | false => exact replayed_settle hp _ _
  | true =>
    refine replayed_stage_bind (replayed_runProgram hm) fun result => ?_
    dsimp only
    split
    · exact replayed_stage_pure _
    · exact replayed_settle hp _ _

theorem replayed_compile :
    Replayed e.programs (DriverStart host tex o) (e.compile tex o).run := by
  have hp : Replayed e.programs (DriverStart host tex o)
      (runProgram e.programs (passStart tex o)).run := replayed_runProgram .pass
  have hrest (pending : Nat) (combined : ToolOutput) :
      Replayed e.programs (DriverStart host tex o)
        (e.indexAndSettle tex (runProgram e.programs (passStart tex o)) pending combined).run :=
    replayed_indexAndSettle hp .makeindex pending combined
  refine replayed_lift_bind (replayed_log _ _) fun _ => replayed_stage_bind hp fun first => ?_
  dsimp only
  split
  · exact replayed_stage_pure _
  refine replayed_stage_bind (replayed_needsBibtex _) fun needed => ?_
  cases needed with
  | false => exact hrest _ _
  | true =>
    refine replayed_stage_bind (replayed_runProgram .bibtex) fun result => ?_
    split
    · exact replayed_stage_pure _
    · split
      · exact replayed_lift_bind (replayed_log _ _) fun _ => hrest _ _
      · exact hrest _ _

end Emulation

/-- **What a driver starts**: the driver that is chosen for a tree, run in this tree. -/
theorem replays_driver {s : Settings} {tex : Path} {o : TexOptions} {past : List Note} {t : Tree} :
    Leads (((choose (host.which t) s).driver host programs host.which).run tex o).run past t
      fun _ notes t' => Replays programs (DriverStart host tex o) past t notes t' := by
  rw [choose]
  split
  · next path h =>
    have hfound : host.which t "texi2dvi" = some path := by
      split at h
      · exact h
      · cases h
    refine leads_lift_bind (leads_log ((replays_runProgram (DriverStart.texi2dvi hfound)).imp ?_))
    exact fun _ _ _ hr => .logged hr
  · exact Emulation.replayed_compile (e := ⟨host.here, programs, host.which, s.maxPasses⟩) past t

end Toolchain

namespace Weaver

/-- The starts of the weaver. -/
inductive WeaverStart (host : Host) (s : Settings) (target : Path) : Start → Tree → Prop
  | engine {t : Tree} {rscript : String} (h : host.which t s.rscript = some rscript)
      (engine : WeaveEngine) : WeaverStart host s target (engineStart engine rscript target) t

private theorem replayed_collect (here target : Path) :
    Replayed programs right (collect here target).run := by
  refine replayed_lift_bind replayed_tree fun t => ?_
  split
  · exact replayed_stage_pure _
  · split
    · exact replayed_stage_pure _
    · exact replayed_throw _
    · exact replayed_lift_bind (replayed_logWeaving _ _) fun _ => replayed_stage_pure _

/-- An engine is started once, in the tree as it stands. -/
private theorem replays_runEngine {name rscript : String} {engine : WeaveEngine} {target : Path}
    {past : List Note} {t : Tree} (hs : right (engineStart engine rscript target) t) :
    Leads (runEngine host.here programs name engine rscript target).run past t
      fun _ notes t' => Replays programs right past t notes t' := by
  refine leads_lift_bind (leads_logWeaving (leads_lift_bind (leads_logWeaving ?_)))
  refine leads_lift_bind (leads_start ?_)
  refine ((?_ : Replayed programs right _) _ _).imp fun _ _ _ h => .logged (.logged (.bytes hs h))
  split
  · exact replayed_stage_pure _
  · exact replayed_throw _
  · split
    · exact replayed_collect _ _
    · refine replayed_lift_bind (replayed_logWeaving _ _) fun _ => ?_
      dsimp only
      split <;> exact replayed_stage_pure _

/-- **What the weaver starts**: R, where it is found. -/
theorem replayed_viaR {s : Settings} {target : Path} {d : Directives} :
    Replayed programs (WeaverStart host s target) (viaR host programs s target d).run := by
  rw [viaR]
  split
  · exact replayed_stage_pure _
  · next engine _ =>
    intro past t
    refine leads_lift_bind (leads_tree ?_)
    split
    · exact leads_stage_pure .nil
    · next rscript h =>
      rw [List.append_nil]
      exact replays_runEngine (.engine h engine)

end Weaver

end Galley
