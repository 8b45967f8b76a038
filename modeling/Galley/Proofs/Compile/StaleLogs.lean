import Galley.Proofs.Compile.CleanStart
import Galley.Proofs.Compile.Oblivious
import Galley.Proofs.Program.Script
import Galley.Proofs.StaleLogs
import Galley.Proofs.Toolchain.Discreet
import Galley.Proofs.Weaver.Agree
import Galley.Toolchain.Probe

/-!
# The logs of an earlier run

A run is not influenced by the logs that an earlier run left: `run_sameButLogs` compares runs from
two trees that are the same but for the logs of the document. It asks of the programs that their
runs are written down beforehand, and that the ones started before the driver, R and the version
query, make no directory of a log (`SparesLogs`).

Up to the removal of the logs nothing looks at them, and behind it there is one tree. A probe that
breaks stops the run between the two: it has reached typesetting, so what logs there are stay, and
these are still the logs of the earlier run (`tree_of_brokenProbe`).
-/

namespace Galley

open Work

variable {t u : Tree} {here target : Path}

/-! ### Cleanup -/

namespace Cleanup

/-- Nothing is seen of a cleanup but messages. -/
theorem seen_run (cleanup : Cleanup) (here : Path) (past : List Note) (t : Tree) :
    (cleanup.run here past t).events.filterMap Note.seen? = [] := by
  have one (base : Path) (suffix : String) (past : List Note) (t : Tree) :
      ((removeByproduct here base suffix).run past t).events.filterMap Note.seen? = [] := by
    rw [removeByproduct]
    cases byproduct? base suffix with
    | none => rfl
    | some p =>
      simp only [run_bind_apply, Chore.tree, run_liftM_apply, look_apply]
      cases t.remove here p with
      | ok t' => rfl
      | error e => obtain ⟨_ | _, path⟩ := e <;> rfl
  have all (base : Path) (suffixes removed : List String) (past : List Note) (t : Tree) :
      (removeByproducts here base removed suffixes past t).events.filterMap Note.seen? = [] := by
    induction suffixes generalizing removed past t with
    | nil => rfl
    | cons suffix rest ih =>
      simp only [removeByproducts, bind_apply, List.filterMap_append, one, List.nil_append]
      cases ((removeByproduct here base suffix).run past t).result with
      | ok names => exact ih _ _ _
      | error e => rfl
  cases hb : cleanup.base with
  | none =>
    simp only [run, hb]
    rfl
  | some base =>
    simp only [run, hb, bind_apply, Chore.tree, look_apply, List.nil_append,
      List.filterMap_append, all]
    split <;> split <;> rfl

private theorem agree_cleaner (cleanup : Cleanup) (here : Path) (t u : Tree) :
    Chore.Agree (cleaner here cleanup).run (cleaner here cleanup).run t u
      fun _ _ t' u' => t = u → t' = u' := by
  intro past past' _
  simp only [cleaner, run_bind_apply, run_liftM_apply, run_pure_apply, List.append_nil]
  refine ⟨by rw [base_run, base_run], by rw [seen_run, seen_run], ?_⟩
  rintro rfl
  exact (run_less past).unique (run_less past')

end Cleanup

/-! ### Collaborators that do not look at the logs -/

/-- Whether trees are the same but for the logs of a document. -/
abbrev SameButLogs (target : Path) (t u : Tree) : Prop := t.SameBut u (IsLog target)

private theorem Path.Settled.not_of_place {p : Path} (hp : p.Settled) {stale : Place → Prop}
    (hn : ¬ stale p.parts) : ∀ q, t.place here p = .ok q → ¬ stale q :=
  fun _ hq => Tree.place_eq_of_settled hp hq ▸ hn

namespace Weaver

private theorem respects_viaR {host : Host} {programs : Programs} {s : Settings} {d : Directives}
    (ht : target.Settled)
    (hr : ∀ engine rscript, Chore.Respects (SameButLogs target)
      (Chore.start programs.bytes (engineStart engine rscript target))) :
    Chore.Respects (SameButLogs target) (viaR host programs s target d).run := by
  have hfree {ending : String} (he : '/' ∉ ending.toList) (hl : 2 < ending.length)
      (hn : (target.stem ++ ending).toList.getLast? ≠ some 'g') :
      ∀ {t : Tree} q, t.place host.here (target.sibling ending) = .ok q → ¬ IsLog target q :=
    (ht.sibling he hl).not_of_place (ht.not_isLog (ht.getLast?_sibling he hl) hn)
  intro t u h
  refine agree_viaR h (h.which_eq host) fun start hstart => ?_
  obtain ⟨engine, rscript, -, -, rfl⟩ := mem_startsIn.mp hstart
  refine (hr engine rscript t u h).imp fun ending es t' u' h' => ⟨h', fun _ _ _ => ?_⟩
  refine agree_collect h' (h'.contains_eq (hfree (by decide) (by decide) (by simp))) fun _ => ?_
  exact h'.load_eq (hfree (by decide) (by decide) (by simp))

end Weaver

private theorem Toolchain.respects_probeVersion {R : Tree → Tree → Prop} {programs : Programs}
    {program : Path}
    (hr : Chore.Respects R
      (Chore.start programs.text ⟨[toString program, "--version"], none, none⟩)) :
    Chore.Respects R (probeVersion programs program).run := by
  refine respects_lift_bind (respects_runProgram hr) fun r => ?_
  cases r with
  | ok result =>
    dsimp only
    split
    · exact respects_throw _
    · exact respects_stage_pure _
  | error e =>
    cases e with
    | launch e => exact respects_throw _
    | crash e => exact respects_throw _

/-! ### Scripted programs that spare the logs -/

/-- Whether the programs that are started before the driver make no directory of a log. -/
structure SparesLogs (runs : List Start → Start → ScriptedRun) (here target : Path) : Prop where
  weaving : ∀ starts engine rscript,
    (runs starts (Weaver.engineStart engine rscript target)).Spares target.parent (IsLog target)
  probing : ∀ (starts : List Start) (program : Path),
    (runs starts ⟨[toString program, "--version"], none, none⟩).Spares here (IsLog target)

variable {runs : List Start → Start → ScriptedRun} {s : Start} {stale : Place → Prop}

private theorem Programs.respects_bytes (hd : (here.join (s.directory.getD here)).isAbsolute = true)
    (hs : ∀ starts, (runs starts s).Spares (here.join (s.directory.getD here)) stale) :
    Chore.Respects (fun t u => t.SameBut u stale) (Chore.start (ofRuns runs here).bytes s) :=
  Chore.respects_start fun starts _ _ h => ScriptedRun.act_sameBut h hd (hs starts)

private theorem Programs.respects_text (hd : (here.join (s.directory.getD here)).isAbsolute = true)
    (hs : ∀ starts, (runs starts s).Spares (here.join (s.directory.getD here)) stale) :
    Chore.Respects (fun t u => t.SameBut u stale) (Chore.start (ofRuns runs here).text s) :=
  Chore.respects_start fun starts _ _ h =>
    (ScriptedRun.act_sameBut h hd (hs starts)).imp_left (congrArg Script.textEnding)

namespace Compilation

variable {host : Host} {viewer : Path → ExceptT Crash (Work Note Tree) Unit} {document : String}
  {completion : Completion} {settings : Settings}

private theorem rejection?_eq {c : Compilation} (h : t.SameBut u stale)
    (hp : ∀ q, t.place c.here c.target = .ok q → ¬ stale q) :
    c.rejection? t = c.rejection? u := by
  rw [rejection?, rejection?, h.contains_eq hp]

private theorem directivesIn_eq {c : Compilation} (h : t.SameBut u stale)
    (hp : ∀ q, t.place c.here c.target = .ok q → ¬ stale q) :
    c.directivesIn t = c.directivesIn u := by
  rw [directivesIn, directivesIn]
  cases ht : t.read c.here c.target with
  | ok content => rw [(h.read_eq_ok_iff hp).mp ht]
  | error e =>
    cases hu : u.read c.here c.target with
    | ok content =>
      rw [(h.read_eq_ok_iff hp).mpr hu] at ht
      cases ht
    | error e' => rfl

private theorem oblivious_onHost (hhere : host.here.Settled)
    (htarget : ¬ IsLog (host.here.resolveIn document) (host.here.resolveIn document).parts)
    (hruns : SparesLogs runs host.here (host.here.resolveIn document))
    (hviewer : ∀ pdf, Chore.Discreet (viewer pdf).run) :
    (onHost host (.ofRuns runs host.here) viewer document completion settings).Oblivious
      (SameButLogs (host.here.resolveIn document)) := by
  have ht : (host.here.resolveIn document).Settled :=
    Path.settled_resolveIn hhere.isAbsolute hhere.no_slash document
  have hself := Path.join_of_isAbsolute hhere.isAbsolute host.here
  have hparent := Path.join_of_isAbsolute (p := (host.here.resolveIn document).parent)
    ht.isAbsolute host.here
  have hfree : ∀ {t : Tree} q, t.place host.here (host.here.resolveIn document) = .ok q →
      ¬ IsLog (host.here.resolveIn document) q := ht.not_of_place htarget
  exact {
    rejection?_eq := fun h => rejection?_eq h hfree
    directivesIn_eq := fun h => directivesIn_eq h hfree
    which_eq := fun h => funext fun name => congrArg Except.ok (congrFun (h.which_eq host) name)
    weaver := fun directives => respects_adapt _ (Weaver.respects_viaR ht fun engine rscript =>
      Programs.respects_bytes (hparent.symm ▸ ht.isAbsolute)
        fun starts => hparent.symm ▸ hruns.weaving starts engine rscript)
    probe := fun program => respects_adapt _ (Toolchain.respects_probeVersion
      (Programs.respects_text (hself.symm ▸ hhere.isAbsolute)
        fun starts => hself.symm ▸ hruns.probing starts program))
    removal := fun h => agree_removeStaleLogs ht h
    driver := fun hd tex o => by
      cases hd
      exact respects_adapt _ (Toolchain.Choice.discreet_run _ _ _ _ tex o)
    viewer := hviewer
    publisher := fun pdf => respects_lift (Chore.respects_log _ _)
    cleaner := fun cleanup t u => Cleanup.agree_cleaner cleanup host.here t u }

variable (completion settings) in
/-- **The logs of an earlier run never influence a new run.** Runs from trees that are the same but
for the logs, by programs that make no directory of a log before the driver starts, have the same
outcome, start the same programs and show the same; the driver finds no logs in either; and if
typesetting was reached and the probe raised no error but about the version, the same tree is
left. -/
theorem run_sameButLogs (hhere : host.here.Settled)
    (htarget : ¬ IsLog (host.here.resolveIn document) (host.here.resolveIn document).parts)
    (hruns : SparesLogs runs host.here (host.here.resolveIn document))
    (hviewer : ∀ pdf, Chore.Discreet (viewer pdf).run)
    (h : SameButLogs (host.here.resolveIn document) t u) (past : List Event) :
    let c := onHost host (.ofRuns runs host.here) viewer document completion settings
    let first := c.run past { tree := t }
    let second := c.run past { tree := u }
    (∃ o, first.result = some o ∧ second.result = some o) ∧
      first.events.filterMap Event.start? = second.events.filterMap Event.start? ∧
      first.events.filterMap Event.shown? = second.events.filterMap Event.shown? ∧
      StartsClean c.target first.events ∧ StartsClean c.target second.events ∧
      (.entered .typesetting ∈ first.events → ¬ ProbeBroke first.events →
        first.state.tree = second.state.tree) := by
  intro c first second
  have ht : c.target.Settled := Path.settled_resolveIn hhere.isAbsolute hhere.no_slash document
  have hc : c.Oblivious (SameButLogs (host.here.resolveIn document)) :=
    oblivious_onHost hhere htarget hruns hviewer
  have hclean : Clean c.target c.run := clean_run ht prompt_onHost
  obtain ⟨hr, he, hapart⟩ := hc.agree_run h past past rfl
  obtain ⟨ho, -⟩ := run_eq_some (c := c) (a := { tree := t }) rfl past
  refine ⟨⟨_, ho, hr.symm.trans ho⟩, Event.filterMap_congr Event.start?_seen he,
    Event.filterMap_congr Event.shown?_seen he, hclean past _, hclean past _, ?_⟩
  intro htypesetting hprobe
  obtain heq | hn | ⟨stop, hv, hs⟩ := hapart
  · exact heq
  · exact absurd ((Event.mem_filterMap_seen? rfl).mpr htypesetting) hn
  · exact absurd ⟨stop, hv, (Event.mem_filterMap_seen? rfl).mp hs⟩ hprobe

/-! ### A document with a log of an earlier run -/

/-- A tree with a TeX program and a document in it. -/
def swept : Tree :=
  (do
    let t ← (∅ : Tree).install rootHost.here (Path.ofString "/pdflatex")
    t.write rootHost.here (Path.ofString "/r.tex") []).toOption.getD ∅

private theorem node?_swept : swept.node? ["r.log"] = none := by decide +kernel

/-- The tree with a log that asks for another pass. -/
def littered : Tree :=
  swept.put [] "r.log" (.file (Text.utf8Encode "Rerun to get cross-references right.") false)
    (Tree.node?_nil swept) (by rw [List.nil_append, node?_swept]; nofun)

private theorem sameButLogs_littered :
    SameButLogs (rootHost.here.resolveIn "r.tex") littered swept := by
  have hlog : (texLogPath ((rootHost.here.resolveIn "r.tex").sibling ".tex")).parts =
      ["r.log"] := by
    decide +kernel
  intro q
  rw [littered, Tree.node?_put, List.nil_append]
  by_cases hq : q = ["r.log"]
  · rw [if_pos hq, hq, node?_swept]
    exact .inr ⟨.inl hlog.symm, .inr ⟨_, rfl⟩, .inl rfl⟩
  · rw [if_neg hq]
    exact .inl rfl

theorem settled_rootHost : rootHost.here.Settled :=
  ⟨by decide +kernel, by decide +kernel, by decide +kernel⟩

private theorem not_isLog_document :
    ¬ IsLog (rootHost.here.resolveIn "r.tex") (rootHost.here.resolveIn "r.tex").parts := by
  have ht := Path.settled_resolveIn settled_rootHost.isAbsolute settled_rootHost.no_slash "r.tex"
  have hname : (rootHost.here.resolveIn "r.tex").parts.getLast? = some "r.tex" := by
    decide +kernel
  exact ht.not_isLog hname (by decide)

/-- Programs that end as given and write nothing. -/
def idleRuns (ending : Start → Galley.Ending (List UInt8)) (_ : List Start) (s : Start) :
    ScriptedRun :=
  { ending := ending s }

private theorem sparesLogs_idleRuns (ending : Start → Galley.Ending (List UInt8))
    (here target : Path) : SparesLogs (idleRuns ending) here target :=
  ⟨fun _ _ _ => ScriptedRun.spares_of_written rfl, fun _ _ => ScriptedRun.spares_of_written rfl⟩

/-- A compilation of the document by such programs. -/
def idleCompilation (ending : Start → Galley.Ending (List UInt8)) : Compilation :=
  onHost rootHost (.ofRuns (idleRuns ending) rootHost.here) (fun _ => pure ()) "r.tex" .none {}

theorem onHost_idleRuns (ending : Start → Galley.Ending (List UInt8)) :
    onHost rootHost (.ofRuns (idleRuns ending) rootHost.here) (fun _ => pure ()) "r.tex" .none {} =
      idleCompilation ending := rfl

/-- Whether a collaborator raised an error. -/
def raises : Event → Bool
  | .raised _ _ => true
  | _ => false

/-- The log asks for another pass, and none is made; it is gone behind the run. -/
theorem run_sameButLogs_littered :
    let c := idleCompilation fun _ => .exited 0 [] []
    (∃ o, (c.run [] { tree := littered }).result = some o ∧
      (c.run [] { tree := swept }).result = some o) ∧
      (c.run [] { tree := littered }).events.filterMap Event.start? =
        (c.run [] { tree := swept }).events.filterMap Event.start? ∧
      (c.run [] { tree := littered }).state.tree = (c.run [] { tree := swept }).state.tree := by
  have hphase : .typesetting ∈ ((idleCompilation fun _ => .exited 0 [] []).run []
      { tree := littered }).events.filterMap Event.phase? := by
    decide +kernel
  have hraised : ((idleCompilation fun _ => .exited 0 [] []).run []
      { tree := littered }).events.all (!raises ·) = true := by
    decide +kernel
  have hrun := run_sameButLogs .none {} settled_rootHost not_isLog_document
    (sparesLogs_idleRuns (fun _ => .exited 0 [] []) _ _) (fun _ => respects_stage_pure ())
    sameButLogs_littered []
  rw [onHost_idleRuns] at hrun
  obtain ⟨ho, hs, -, -, -, ht⟩ := hrun
  refine ⟨ho, hs, ht (mem_of_mem_phases hphase) ?_⟩
  rintro ⟨stop, -, hmem⟩
  exact Bool.false_ne_true (List.all_eq_true.mp hraised _ hmem)

/-- Programs that end well, but for a version query, which goes wrong altogether. -/
def brokenProbe (s : Start) : Galley.Ending (List UInt8) :=
  if s.command.getLast? = some "--version" then .broken "boom" else .exited 0 [] []

/-- **A probe that breaks keeps the log**: typesetting was reached, and the trees differ. -/
theorem tree_of_brokenProbe :
    SparesLogs (idleRuns brokenProbe) rootHost.here (idleCompilation brokenProbe).target ∧
      SameButLogs (idleCompilation brokenProbe).target littered swept ∧
      .entered .typesetting ∈
        ((idleCompilation brokenProbe).run [] { tree := littered }).events ∧
      .entered .typesetting ∈ ((idleCompilation brokenProbe).run [] { tree := swept }).events ∧
      ((idleCompilation brokenProbe).run [] { tree := littered }).state.tree ≠
        ((idleCompilation brokenProbe).run [] { tree := swept }).state.tree := by
  refine ⟨sparesLogs_idleRuns _ _ _, sameButLogs_littered, mem_of_mem_phases ?_,
    mem_of_mem_phases ?_, fun h => ?_⟩
  · decide +kernel
  · decide +kernel
  · have hlog : ((idleCompilation brokenProbe).run [] { tree := littered }).state.tree.node?
        ["r.log"] ≠ ((idleCompilation brokenProbe).run [] { tree := swept }).state.tree.node?
          ["r.log"] := by
      decide +kernel
    exact hlog (congrArg (·.node? ["r.log"]) h)

end Compilation

end Galley
