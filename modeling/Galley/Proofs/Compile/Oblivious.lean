import Galley.Proofs.Compile.Agree
import Galley.Proofs.Compile.Byproducts

/-!
# Compilations that are oblivious of what earlier runs left

A compilation is **oblivious** of the difference between related trees if its checks, its weaver
and its probe cannot tell such trees apart and keep them related, if removing the logs of an
earlier run makes them equal, and if the collaborators behind that do the same whenever they are
started on the same tree. Two runs from related trees then look the same and have the same outcome
(`Oblivious.agree_run`). Their trees are the same at the end unless the run stopped before the logs
were removed: it did not reach typesetting, or the probe raised an error that is not about the
version.
-/

namespace Galley

namespace Compilation

open Work Attempt

/-- Whether a compilation does not see the difference between related trees. -/
structure Oblivious (c : Compilation) (R : Tree → Tree → Prop) : Prop where
  rejection?_eq : ∀ {t u}, R t u → c.rejection? t = c.rejection? u
  directivesIn_eq : ∀ {t u}, R t u → c.directivesIn t = c.directivesIn u
  which_eq : ∀ {t u}, R t u → c.which t = c.which u
  weaver : ∀ directives, Chore.Respects R (c.weaver c.target directives).run
  probe : ∀ program, Chore.Respects R (c.probe program).run
  /-- The difference is in the logs of an earlier run. -/
  removal : ∀ {t u}, R t u →
    Chore.Agree (removeStaleLogs c.here (c.target.sibling ".tex"))
      (removeStaleLogs c.here (c.target.sibling ".tex")) t u fun _ _ t u => t = u
  driver : ∀ {t d}, c.driver t = .ok d → ∀ tex options, Chore.Discreet (d.run tex options).run
  viewer : ∀ pdf, Chore.Discreet (c.viewer pdf).run
  publisher : ∀ pdf, Chore.Discreet (c.publisher pdf).run
  /-- The result of the cleanup does not depend on the tree. -/
  cleaner : ∀ cleanup t u,
    Chore.Agree (c.cleaner cleanup).run (c.cleaner cleanup).run t u
      fun _ _ t' u' => t = u → t' = u'

/-- Whether the probe raised an error that is not about the version. -/
def ProbeBroke (es : List Event) : Prop :=
  ∃ stop, (∀ message, stop ≠ .version message) ∧ .raised .probe stop ∈ es

private theorem ProbeBroke.append {es : List Event} (h : ProbeBroke es) (es' : List Event) :
    ProbeBroke (es ++ es') :=
  let ⟨stop, hv, hs⟩ := h
  ⟨stop, hv, List.mem_append_left _ hs⟩

/-- How two runs are left behind the stages: on one tree, or without the removal of the logs. -/
def Rejoined (es : List Event) (a a' : Attempt) : Prop :=
  Alike Eq true a a' ∨ ∃ b, Alike (fun _ _ => True) b a a' ∧ (b = false ∨ ProbeBroke es)

namespace Oblivious

variable {c : Compilation} {R : Tree → Tree → Prop} {b : Bool} {a a' : Attempt}

/-! ### Validating -/

private theorem readDirectives_apply (past : List Event) (a : Attempt) :
    (c.readDirectives past a).result = c.directivesIn a.tree ∧
      (c.readDirectives past a).events.filterMap Event.seen? = [] ∧
        (c.readDirectives past a).state = a := by
  simp only [readDirectives, directivesIn, bind_apply, current, look_apply]
  cases a.tree.read c.here c.target with
  | ok content => exact ⟨rfl, rfl, rfl⟩
  | error e => exact ⟨rfl, rfl, rfl⟩

private theorem respects_readDirectives (h : c.Oblivious R) : Respects R b c.readDirectives := by
  intro a a' ha past past' _
  obtain ⟨hr, he, hs⟩ := readDirectives_apply (c := c) past a
  obtain ⟨hr', he', hs'⟩ := readDirectives_apply (c := c) past' a'
  rw [hr, hr', he, he', hs, hs']
  exact ⟨h.directivesIn_eq ha.tree, rfl, ha⟩

private theorem respects_checkTarget (h : c.Oblivious R) : Respects R b c.checkTarget.run := by
  refine respects_lift_current_bind fun a a' ha => ?_
  rw [h.rejection?_eq ha.tree]
  cases c.rejection? a'.tree with
  | none => exact respects_stage_pure () a a' ha
  | some message => exact respects_throw _ a a' ha

private theorem respects_chooseProgram (h : c.Oblivious R) (directives : Directives) :
    Respects R b (c.chooseProgram directives).run := by
  rw [chooseProgram]
  cases TexProgram.supportedName directives c.settings with
  | error problem => exact respects_throw _
  | ok name =>
    refine respects_lift_current_bind fun a a' ha => ?_
    rw [h.which_eq ha.tree]
    refine respects_stage_bind (respects_accept _ _) (fun found => ?_) a a' ha
    cases TexProgram.absolute c.here name found with
    | error problem => exact respects_throw _
    | ok program => exact respects_lift_bind (respects_log _ _) fun _ => respects_stage_pure _

private theorem respects_validate (h : c.Oblivious R) : Respects R b c.validate.run := by
  refine respects_lift_bind (respects_enter _) fun _ => ?_
  refine respects_stage_bind h.respects_checkTarget fun _ => ?_
  have chosen : Respects R b (do
      let directives ← liftM c.readDirectives
      let program ← c.chooseProgram directives
      return (directives, program) : Stage _).run :=
    respects_lift_bind h.respects_readDirectives fun directives =>
      respects_stage_bind (h.respects_chooseProgram directives) fun _ => respects_stage_pure _
  split
  · exact respects_lift_bind (respects_update (fun _ _ => rfl) fun _ => rfl) fun _ => chosen
  · exact chosen

/-! ### Weaving and typesetting -/

private theorem respects_weaveLiterate (h : c.Oblivious R) (directives : Directives) :
    Respects R b (c.weaveLiterate directives).run := by
  rw [weaveLiterate]
  split
  · refine respects_lift_bind (respects_enter _) fun _ => ?_
    refine respects_stage_bind (respects_call _ (h.weaver directives)) fun result => ?_
    refine respects_lift_bind (respects_record _) fun _ => ?_
    cases result with
    | woven tex concordance => exact respects_stage_pure _
    | failed reason => exact respects_throw _
  · exact respects_stage_pure _

/-- The probe stops the compilation only with an error that is not about the version. -/
private theorem agree_probeVersion (h : c.Oblivious R) (program : Path) (ha : Alike R b a a') :
    Compilation.Agree (c.probeVersion program).run (c.probeVersion program).run a a'
      fun r es a a' => Alike R b a a' ∧ ∀ stop, r = .error stop → ProbeBroke es := by
  refine agree_lift_bind ((respects_chore (h.probe program) a a' ha).imp ?_)
  rintro (stop | version) es a a' ha
  · refine agree_lift_bind (agree_emit rfl ?_)
    cases stop with
    | version message =>
      refine agree_lift_bind ((respects_log _ _ a a' ha).imp ?_)
      intro _ _ a a' ha
      exact agree_lift_bind (agree_emit rfl (agree_stage_pure ⟨ha, by simp⟩))
    | _ =>
      refine agree_throw ⟨ha, fun _ _ => ⟨_, ?_, List.mem_append_right _
        (List.mem_append_left _ (List.mem_singleton_self _))⟩⟩
      simp
  · refine agree_lift_bind ((respects_log _ _ a a' ha).imp ?_)
    intro _ _ a a' ha
    exact agree_stage_pure ⟨ha, by simp⟩

private theorem respects_drive (h : c.Oblivious R) (tex : Path) (options : TexOptions) :
    Respects Eq b (c.drive tex options).run := by
  refine respects_lift_current_bind fun a a' ha => ?_
  rw [← ha.tree]
  refine agree_stage_bind ((agree_accept .lookup (c.driver a.tree) ha).imp ?_)
  rintro (stop | driver) - a₁ a₁' ⟨hd, ha⟩
  · exact ha
  · have driven : Respects Eq b (do
        let result ← Stage.call .driver (driver.run tex options)
        Compilation.record (.drove result)
        update fun a => { a with result := some result } : Stage Unit).run :=
      respects_stage_bind (respects_call _ (h.driver hd.symm tex options)) fun result =>
        respects_lift_bind (respects_record _) fun _ =>
          respects_lift (respects_update (fun _ _ => rfl) fun _ => rfl)
    exact respects_lift_bind (respects_log _ _) (fun _ =>
      respects_lift_bind (respects_record _) fun _ => driven) a₁ a₁' ha

/-- The logs are removed behind the probe, and from there on there is one tree. -/
private theorem agree_typeset (h : c.Oblivious R) (program : Path) (ha : Alike R false a a') :
    Compilation.Agree (c.typeset program).run (c.typeset program).run a a'
      fun r es a a' => Alike Eq true a a' ∨
        (∃ stop, r = .error stop) ∧ Alike (fun _ _ => True) true a a' ∧ ProbeBroke es := by
  refine agree_lift_bind ((respects_enter _ a a' ha).imp fun _ _ a a' ha => ?_)
  refine agree_lift_bind (agree_change ?_)
  have hreached : Alike R true { a with typesetting := true } { a' with typesetting := true } :=
    ⟨ha.tree, by rw [ha.rest], rfl⟩
  refine agree_stage_bind ((h.agree_probeVersion program hreached).imp ?_)
  rintro (stop | version) es a a' ⟨ha, hstop⟩
  · obtain ⟨s, hv, hs⟩ := hstop stop rfl
    refine .inr ⟨⟨stop, rfl⟩, ⟨trivial, ha.rest, ha.typesetting⟩, s, hv, ?_⟩
    simp [hs]
  · refine agree_lift_bind ((agree_chore_alike ha (h.removal ha.tree)).imp ?_)
    intro _ _ a a' ha
    refine agree_stage_bind ((h.respects_drive _ _ a a' ha).imp ?_)
    rintro (stop | _) _ a a' ha
    · exact .inl ha
    · exact agree_stage_pure (.inl ha)

/-! ### Reporting -/

private theorem respects_runCompletion (h : c.Oblivious R) (pdf : Path) :
    Respects Eq b (c.runCompletion pdf) := by
  have complete : Respects Eq b (c.complete pdf).run := by
    rw [Compilation.complete]
    cases c.completion with
    | none => exact respects_stage_pure ()
    | view => exact respects_lift_bind (respects_record _) fun _ => respects_chore (h.viewer pdf)
    | publish =>
      cases c.home with
      | none => exact respects_throw _
      | some home =>
        exact respects_lift_bind (respects_record _) fun _ => respects_chore (h.publisher _)
  refine respects_bind complete fun r => ?_
  cases r with
  | ok => exact respects_pure ()
  | error e => exact respects_bind (respects_log _ _) fun _ => respects_record _

private theorem discreet_readEntries (here p : Path)
    (load : Tree → Path → Path → Except LogError (List Entry)) :
    Chore.Discreet (Diagnostics.readEntries here p load) := by
  refine respects_bind Chore.discreet_tree fun t => ?_
  split
  · exact respects_pure _
  · cases load t here p with
    | ok entries => exact respects_pure _
    | error e => exact respects_bind (Chore.respects_log _ _) fun _ => respects_pure _

private theorem respects_diagnose (program tex : Path) (concordance : Concordance)
    (result : ToolOutput) : Respects Eq b (c.diagnose program tex concordance result).run := by
  have collect : Chore.Discreet (Diagnostics.collect c.here tex concordance) := by
    refine respects_bind (discreet_readEntries _ _ _) fun _ => ?_
    split
    · exact respects_pure _
    · exact respects_bind (discreet_readEntries _ _ _) fun _ => respects_pure _
  refine respects_lift_bind (respects_record _) fun _ => ?_
  refine respects_lift_bind respects_keepLogs fun _ => ?_
  refine respects_lift_bind (respects_chore collect) fun collected => ?_
  cases collected with
  | error e => exact respects_lift_bind (respects_record _) fun _ => respects_throw _
  | ok diagnostics =>
    refine respects_lift_bind (respects_record _) fun _ => ?_
    refine respects_lift_bind (respects_displayAll _) fun _ => ?_
    split
    · exact respects_throw _
    · exact respects_throw _
    · split
      · exact respects_stage_pure _
      · exact respects_throw _

private theorem respects_report (h : c.Oblivious R) (program tex : Path)
    (concordance : Concordance) : Respects Eq b (c.report program tex concordance).run := by
  refine respects_lift_bind (respects_enter _) fun _ => ?_
  refine respects_lift_current_bind fun a a' ha => ?_
  have hresult := congrArg Attempt.result ha.rest
  rw [hresult]
  refine (?_ : Respects Eq b _) a a' ha
  dsimp only
  split
  · refine respects_lift (respects_bind (respects_record _) fun _ => ?_)
    exact respects_bind (h.respects_runCompletion _) fun _ => respects_pure _
  · exact respects_diagnose _ _ _ _

/-! ### The whole -/

private theorem agree_pipeline (h : c.Oblivious R) (ha : Alike R false a a') :
    Compilation.Agree c.pipeline.run c.pipeline.run a a'
      fun _ es a a' => Rejoined es a a' := by
  have apart : ∀ {es a a'}, Alike R false a a' → Rejoined es a a' :=
    fun ha => .inr ⟨false, ⟨trivial, ha.rest, ha.typesetting⟩, .inl rfl⟩
  refine agree_stage_bind ((h.respects_validate a a' ha).imp ?_)
  rintro (stop | ⟨directives, program⟩) _ a a' ha
  · exact apart ha
  refine agree_stage_bind ((h.respects_weaveLiterate directives a a' ha).imp ?_)
  rintro (stop | concordance) _ a a' ha
  · exact apart ha
  refine agree_stage_bind ((h.agree_typeset program ha).imp ?_)
  rintro r es a a' (ha | ⟨⟨stop, rfl⟩, ha, s, hv, hs⟩)
  · cases r with
    | error stop => exact .inl ha
    | ok tex =>
      exact (h.respects_report program tex concordance a a' ha).imp fun _ _ _ _ ha => .inl ha
  · exact .inr ⟨true, ha, .inr ⟨s, hv, by simp [hs]⟩⟩

private theorem respects_fail {S : Tree → Tree → Prop} (stop : Stop) : Respects S b (c.fail stop) :=
    by
  have told : Respects S b (do
      c.enter .reporting
      let a ← current
      if a.typesetting then keepLogs
      display (.error (stop.message ++ "\n"))
      return stop.outcome a.result) := by
    refine respects_bind (respects_enter _) fun _ => respects_current_bind fun a a' ha => ?_
    have hresult := congrArg Attempt.result ha.rest
    have htypesetting := congrArg Attempt.typesetting ha.rest
    rw [hresult, htypesetting]
    refine (?_ : Respects S b _) a a' ha
    have shown : Respects S b (do
        display (.error (stop.message ++ "\n"))
        return stop.outcome a.result) :=
      respects_bind (respects_record _) fun _ => respects_pure _
    dsimp only
    split
    · exact respects_bind respects_keepLogs fun _ => shown
    · exact shown
  cases stop with
  | crash e => exact respects_bind (respects_log _ _) fun _ => told
  | _ => exact told

private theorem agree_attempt (h : c.Oblivious R) (ha : Alike R false a a') :
    Compilation.Agree c.attempt c.attempt a a' fun _ es a a' => Rejoined es a a' := by
  refine agree_bind ((h.agree_pipeline ha).imp ?_)
  rintro (stop | o) es a a' ha
  · obtain ha | ⟨b, ha, hb⟩ := ha
    · exact (respects_fail stop a a' ha).imp fun _ _ _ _ ha => .inl ha
    · exact (respects_fail stop a a' ha).imp fun _ es' _ _ ha =>
        .inr ⟨b, ha, hb.imp_right fun hs => hs.append es'⟩
  · exact agree_pure (by simpa using ha)

/-- How two runs are left at the end: on one tree, unless the logs were not removed. -/
def Apart (es : List Event) (a a' : Attempt) : Prop :=
  a.tree = a'.tree ∨ .entered .typesetting ∉ es ∨ ProbeBroke es

variable {t u : Tree}

/-- Whether typesetting was reached is known from the attempt, and can be told from what is
seen. -/
private theorem agree_carryOut (h : c.Oblivious R) (hR : R t u) :
    Compilation.Agree c.carryOut c.carryOut { tree := t } { tree := u }
      fun _ es a a' => a' = { a with tree := a'.tree } ∧ Apart es a a' := by
  have hfresh : Alike R false { tree := t } { tree := u } := ⟨hR, rfl, rfl⟩
  have carried : Compilation.Agree c.carryOut c.carryOut { tree := t } { tree := u }
      fun _ es a a' => Rejoined es a a' := by
    refine agree_bind ((respects_logAll _ _ _ hfresh).imp fun _ es a a' ha => ?_)
    refine (h.agree_attempt ha).imp fun _ es' a a' ha => ?_
    exact ha.imp_right fun ⟨b, ha, hb⟩ => ⟨b, ha, hb.imp_right fun ⟨stop, hv, hs⟩ =>
      ⟨stop, hv, List.mem_append_right _ hs⟩⟩
  intro past past' hp
  obtain ⟨hr, he, ha⟩ := carried past past' hp
  refine ⟨hr, he, ?_⟩
  obtain ha | ⟨b, ha, rfl | hb⟩ := ha
  · exact ⟨ha.rest, .inl ha.tree⟩
  · refine ⟨ha.rest, .inr (.inl fun hmem => ?_)⟩
    have htold := (meets_carryOut (c := c) (t := t) past).1.typesetting_iff
    rw [ha.typesetting, mem_story] at htold
    exact absurd (htold.mpr ⟨(Event.mem_filterMap_seen? rfl).mp hmem, rfl⟩) Bool.false_ne_true
  · exact ⟨ha.rest, .inr (.inr hb)⟩

private theorem agree_finish (h : c.Oblivious R) (ha : a' = { a with tree := a'.tree }) :
    Compilation.Agree c.finish c.finish a a' fun _ es b b' =>
      .entered .typesetting ∉ es ∧ (a.tree = a'.tree → b.tree = b'.tree) := by
  have hcleanup := congrArg Attempt.cleanup ha
  refine agree_bind (agree_enter (agree_look_bind ?_))
  rw [show ({ a' with phase := .finished } : Attempt).cleanup = a.cleanup from hcleanup]
  refine agree_bind (agree_chore ((h.cleaner a.cleanup _ _).imp fun r notes t' u' ht => ?_))
  cases r with
  | ok cleanup => exact agree_change ⟨by simp, ht⟩
  | error e => exact agree_chore (Chore.agree_log ⟨by simp, ht⟩)

/-- **Runs from related trees look the same** and have the same outcome, and they end with the
same tree if typesetting was reached and the probe stopped neither of them. -/
theorem agree_run (h : c.Oblivious R) (hR : R t u) :
    Compilation.Agree c.run c.run { tree := t } { tree := u } fun _ es a a' => Apart es a a' := by
  refine agree_look_bind ?_
  simp only [ne_eq, not_true, if_false]
  refine agree_bind ((h.agree_carryOut hR).imp fun o es a a' ⟨ha, hapart⟩ => ?_)
  refine agree_bind ((h.agree_finish ha).imp fun _ es' b b' ⟨hn, ht⟩ => ?_)
  refine agree_bind (agree_logAll (agree_pure ?_))
  rw [List.append_nil, List.append_nil]
  obtain heq | hr | hb := hapart
  · exact .inl (ht heq)
  · exact .inr (.inl (by simp [hr, hn]))
  · exact .inr (.inr (hb.append es'))

end Oblivious

end Compilation

end Galley
