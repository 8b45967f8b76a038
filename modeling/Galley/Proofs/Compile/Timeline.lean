import Galley.Proofs.Compile.Classification
import Galley.Proofs.Compile.Landmarks
import Galley.Proofs.Compile.StaleLogs
import Galley.Proofs.Weaver.Expression

/-!
# The timeline of a run

Every run goes through its phases in one order and ends in the last of them, whatever its
collaborators do. On a host every program starts in its phase: R at most once while the document
is woven, then the version probe once and behind it the programs of the driver, in the order of
the commands that it lists. An attempt that has been run before does nothing when it is run again.
`phases_of_run` is the main result.
-/

namespace Galley

open Work

namespace Compilation

variable {c : Compilation} {t : Tree}

/-! ### The collaborators of a host -/

/-- The probe starts its program once. -/
private theorem leads_probeVersion {programs : Programs} {program : Path} {past : List Note} :
    Leads (Toolchain.probeVersion programs program).run past t fun _ notes _ =>
      startsOf notes = [probeStart program] := by
  refine leads_lift_bind (Toolchain.leads_runProgram_starts.imp ?_)
  rintro r notes t' ⟨hn, -⟩
  have hsame : startsOf (notes ++ []) = [probeStart program] := by
    rw [List.append_nil, hn]
    rfl
  split
  · split
    · exact leads_throw hsame
    · exact leads_stage_pure hsame
  · exact leads_throw hsame
  · exact leads_throw hsame

/-- The weaver starts R at most once. -/
private theorem leads_viaR {host : Host} {programs : Programs} {s : Settings} {target : Path}
    {d : Directives} {past : List Note} :
    Leads (Weaver.viaR host programs s target d).run past t fun _ notes _ => startsOf notes = [] ∨
      ∃ rscript expression, startsOf notes = [rStart target rscript expression] := by
  refine Weaver.leads_viaR_starts.imp fun _ notes _ hn => ?_
  rw [hn, Weaver.startsIn]
  split
  · exact .inr ⟨_, _, rfl⟩
  · exact .inl rfl

private theorem silent_cleaner {here : Path} {cleanup : Cleanup} {past : List Note} :
    Leads (Cleanup.cleaner here cleanup).run past t fun _ notes _ => startsOf notes = [] := by
  have hsilent : Leads (cleanup.run here) past t fun _ notes _ => startsOf notes = [] := by
    rw [Leads, ← startsOf_seen, Cleanup.seen_run, startsOf_nil]
  refine leads_lift_bind (hsilent.imp fun _ notes _ hn => leads_stage_pure ?_)
  rw [List.append_nil, hn]

/-- The collaborators of a host start what they are expected to start. -/
theorem disciplined_onHost (host : Host) (programs : Programs)
    (viewer : Path → ExceptT Crash (Work Note Tree) Unit) (target : String)
    (completion : Completion) (settings : Settings) :
    (onHost host programs viewer target completion settings).Disciplined where
  weaver := leads_adapt leads_viaR
  probe := leads_adapt leads_probeVersion
  driver := by
    intro t d hd tex o past t'
    cases hd
    refine leads_adapt (Toolchain.Choice.lists_run.imp fun r notes _ hl => ⟨hl.directory, ?_⟩)
    intro out ho
    rw [hl.commands out (eq_ok_of_mapError ho), List.nil_append]
  publisher := rfl
  cleaner := silent_cleaner

/-! ### Runs that end early -/

private theorem Verdict.not_valid {o : Outcome} {ds : List Event} (h : c.Verdict t o ds)
    (hk : o.kind = .invalidInput ∨ o.kind = .toolResolutionError) : ¬ c.Valid t := by
  rintro ⟨ha, name, found, hp, hw⟩
  have hu : ¬ c.Unresolved t := not_unresolved hp hw (by simp)
  cases h with
  | rejected h => exact h ha
  | unresolved h hu' => exact hu hu'
  | crashed | unwoven | unlaunched | succeeded | uncollected | found | process | unshowable =>
    simp [Stop.outcome, Stop.kind, successOutcome, diagnosticsOutcome] at hk

private theorem Verdict.weaveFailed {o : Outcome} {ds : List Event} (h : c.Verdict t o ds)
    (hk : o.kind = .weaveError) : weaveFailed ds = true := by
  cases h with
  | unwoven => rfl
  | rejected | unresolved | crashed | unlaunched | succeeded | uncollected | found | process
  | unshowable =>
    simp [Stop.outcome, Stop.kind, successOutcome, diagnosticsOutcome] at hk

private theorem weaveFailed_of_decisive {events : List Event}
    (h : weaveFailed (decisive events) = true) : weaveFailed events = true := by
  obtain ⟨e, he, hf⟩ := List.any_eq_true.mp h
  exact List.any_eq_true.mpr ⟨e, (List.mem_filter.mp he).1, hf⟩

/-! ### The whole run -/

private theorem leads_logAll (ms : List Message) {past : List Event} {a : Attempt} :
    Leads (logAll ms) past a fun _ es a' => landmarks es = [] ∧ a' = a := by
  induction ms generalizing past with
  | nil => exact ⟨rfl, rfl⟩
  | cons m rest ih => exact leads_bind (leads_record ih)

/-- A run of a fresh attempt carries it out and ends it. -/
theorem leads_run {past : List Event} {Q : Option Outcome → List Event → Attempt → Prop}
    (h : Leads c.carryOut past { tree := t } fun o es a =>
      Leads c.finish (past ++ es) a fun _ es' a' =>
        ∀ es'', landmarks es'' = [] → Q (some o) (es ++ (es' ++ es'')) a') :
    Leads c.run past { tree := t } Q := by
  rw [Leads, run_of_created rfl]
  refine leads_bind (h.imp fun o es a hf => leads_bind (hf.imp fun _ es' a' hq => ?_))
  refine leads_bind ((leads_logAll _).imp ?_)
  rintro - es'' _ ⟨hes, rfl⟩
  exact leads_pure (hq _ (by simpa using hes))

/-- A run ends in the last phase. -/
private theorem phase_run (past : List Event) : (c.run past { tree := t }).state.phase =
    .finished := by
  have hfinish : ∀ past a, Leads c.finish past a fun _ _ a' => a'.phase = .finished := by
    intro past a
    refine leads_bind (leads_enter fun m => leads_bind (leads_current (leads_bind ?_)))
    refine leads_chore ?_
    rw [Leads]
    split
    · exact leads_update rfl
    · exact leads_chore (leads_log rfl)
  have hrun : Leads c.run past { tree := t } fun _ _ a => a.phase = .finished := by
    refine leads_run ?_
    rw [Leads]
    exact (hfinish _ _).imp fun _ _ _ ha _ _ => ha
  exact hrun

/-- An attempt that has been run is left as it is. -/
theorem run_of_ne_created {a : Attempt} (h : a.phase ≠ .created) (past : List Event) :
    c.run past a = ⟨none, [], a⟩ := by
  simp only [run, bind_apply, current, look_apply, h, ne_eq, not_false_eq_true, if_true, pure_apply,
    List.append_nil]

/-- Nothing is started once the attempt is over. -/
theorem landmarks_finish (hc : c.Disciplined) {past : List Event} {a : Attempt} :
    Leads c.finish past a fun _ es _ => landmarks es = [.entered .finished] := by
  refine leads_bind (leads_enter fun m => leads_bind (leads_current (leads_bind ?_)))
  refine leads_chore (hc.cleaner.imp fun r notes _ hn => ?_)
  refine (Quiet.leads ?_).imp fun _ es _ h => ?_
  · split
    · exact quiet_update _
    · exact quiet_log _ _
  · rw [landmarks_append, landmarks_append, landmarks_append, landmarks_notes, hn, h]
    rfl

private theorem landmarks_run (hc : c.Disciplined) (past : List Event) :
    ∃ (weaves typesets again : Bool) (woven driven viewed : List Start) (program : Path)
      (result? : Option ToolOutput),
      landmarks (c.run past { tree := t }).events =
        itinerary weaves typesets again woven driven viewed program result? ∧
      ∀ o, (c.run past { tree := t }).result = some o →
        c.Timely o woven driven viewed result? := by
  have hrun : Leads c.run past { tree := t } fun r es _ =>
      ∃ (weaves typesets again : Bool) (woven driven viewed : List Start) (program : Path)
        (result? : Option ToolOutput),
        landmarks es = itinerary weaves typesets again woven driven viewed program result? ∧
        ∀ o, r = some o → c.Timely o woven driven viewed result? := by
    refine leads_run (leads_bind ((leads_logAll _).imp ?_))
    rintro - es _ ⟨hes, rfl⟩
    refine (landmarks_attempt hc).imp ?_
    rintro o es' a ⟨weaves, typesets, again, woven, driven, viewed, program, result?, hmarks, ht⟩
    refine (landmarks_finish hc).imp fun _ es'' _ hf logs hlogs => ?_
    refine ⟨weaves, typesets, again, woven, driven, viewed, program, result?, ?_, ?_⟩
    · rw [← hmarks, landmarks_append, landmarks_append, landmarks_append, hes, hf, hlogs]
      rfl
    · rintro _ ⟨⟩
      exact ht
  exact hrun

private theorem phase?_itinerary (weaves typesets again : Bool) (woven driven viewed : List Start)
    (program : Path) (result? : Option ToolOutput) :
    (itinerary weaves typesets again woven driven viewed program result?).filterMap
      Landmark.phase? = phaseOrder weaves typesets again := by
  have hstarts (starts : List Start) :
      (starts.map Landmark.started).filterMap Landmark.phase? = [] := by
    simp [Landmark.phase?]
  have hdrove : (result?.toList.map Landmark.drove).filterMap Landmark.phase? = [] := by
    simp [Landmark.phase?]
  cases weaves <;> cases typesets <;> cases again <;>
    simp [itinerary, phaseOrder, List.filterMap_cons, hstarts, hdrove, Landmark.phase?]

private theorem start?_itinerary (weaves typesets again : Bool) (woven driven viewed : List Start)
    (program : Path) (result? : Option ToolOutput) :
    (itinerary weaves typesets again woven driven viewed program result?).filterMap
        Landmark.start? =
      (if weaves then woven else []) ++
        ((if typesets then probeStart program :: driven else []) ++ viewed) := by
  have hstarts (starts : List Start) :
      (starts.map Landmark.started).filterMap Landmark.start? = starts := by
    rw [List.filterMap_map]
    exact List.filterMap_some
  have hdrove : (result?.toList.map Landmark.drove).filterMap Landmark.start? = [] := by
    simp [Landmark.start?]
  cases weaves <;> cases typesets <;> cases again <;>
    simp [itinerary, List.filterMap_cons, hstarts, hdrove, Landmark.start?]

/-- The order of the phases of a run from the tree `t`, and what decides about them. -/
structure InOrder (c : Compilation) (t : Tree) (events : List Event)
    (weaves typesets again : Bool) : Prop where
  order : phasesOf events = phaseOrder weaves typesets again
  weaves_iff : weaves = true ↔ c.Valid t ∧ c.isLiterate = true
  typesets_iff : typesets = true ↔ c.Valid t ∧ weaveFailed events = false

/-- What programs are started in the phases of a run with an outcome. -/
structure StartsInOrder (c : Compilation) (events : List Event) (o : Outcome)
    (weaves typesets again : Bool) : Prop where
  exists_starts : ∃ (woven driven viewed : List Start) (program : Path)
    (result? : Option ToolOutput),
      landmarks events = itinerary weaves typesets again woven driven viewed program result? ∧
      c.Timely o woven driven viewed result?
  early (h : o.kind = .invalidInput ∨ o.kind = .toolResolutionError) :
    events.filterMap Event.start? = []
  unwoven (h : o.kind = .weaveError) : events.filterMap Event.start? = [] ∨
    ∃ rscript expression, events.filterMap Event.start? = [rStart c.target rscript expression]

private theorem exists_inOrder (c : Compilation) (past : List Event) (t : Tree) :
    ∃ weaves typesets again,
      InOrder c t (c.run past { tree := t }).events weaves typesets again := by
  obtain ⟨-, hs, -⟩ := run_eq_some (c := c) (a := { tree := t }) rfl past
  obtain ⟨he, -⟩ := meets_carryOut (c := c) (t := t) past
  obtain ⟨weaves, again, horder, hweaves, htypesets⟩ := he.phases
  refine ⟨weaves, (c.carryOut past { tree := t }).state.typesetting, again, ?_, hweaves, ?_⟩
  · rw [← phasesOf_story, hs, horder]
  · rw [htypesets, ← weaveFailed_story (c.run past _).events, hs, weaveFailed_append]
    simp [Galley.weaveFailed, Event.failsWeaving]

/-- **The timeline of a run.** Its phases come in order, whatever the collaborators do, and it ends
in the last one. On a host programs are started in their phases only. Once it has been run, an
attempt cannot be run again. -/
theorem phases_of_run (c : Compilation) (past : List Event) (t : Tree) :
    (c.run past { tree := t }).state.phase = .finished ∧
      (∃ (o : Outcome) (weaves typesets again : Bool), (c.run past { tree := t }).result = some o ∧
        InOrder c t (c.run past { tree := t }).events weaves typesets again ∧
        ∀ host programs viewer target completion settings,
          c = onHost host programs viewer target completion settings →
            StartsInOrder c (c.run past { tree := t }).events o weaves typesets again) ∧
      ∀ past' a, a.phase ≠ .created → c.run past' a = ⟨none, [], a⟩ := by
  refine ⟨phase_run past, ?_, fun past' a h => run_of_ne_created h past'⟩
  obtain ⟨hr, hs, -⟩ := run_eq_some (c := c) (a := { tree := t }) rfl past
  obtain ⟨he, -⟩ := meets_carryOut (c := c) (t := t) past
  obtain ⟨weaves, typesets, again, hin⟩ := exists_inOrder c past t
  refine ⟨_, weaves, typesets, again, hr, hin, ?_⟩
  rintro host programs viewer target completion settings rfl
  obtain ⟨weaves', typesets', again', woven, driven, viewed, program, result?, hmarks, htimely⟩ :=
    landmarks_run (disciplined_onHost host programs viewer target completion settings) past
  have htimely := htimely _ hr
  -- the phases among the landmarks are the phases of the run
  have hphases := hin.order
  rw [phasesOf_eq, hmarks, phase?_itinerary] at hphases
  obtain ⟨rfl, rfl, rfl⟩ := phaseOrder_inj hphases
  have hstarts := starts_eq ((onHost host programs viewer target completion settings).run past
    { tree := t }).events
  rw [hmarks, start?_itinerary] at hstarts
  have hverdict := he.verdict (foreign_onHost host programs viewer target completion settings)
  refine ⟨⟨woven, driven, viewed, program, result?, hmarks, htimely⟩, fun hk => ?_, fun hk => ?_⟩
  · have hv := hverdict.not_valid hk
    have hweaves : weaves' = false := by
      rw [← Bool.not_eq_true, hin.weaves_iff]
      exact fun h => hv h.1
    have htypesets : typesets' = false := by
      rw [← Bool.not_eq_true, hin.typesets_iff]
      exact fun h => hv h.1
    have hviewed : viewed = [] := htimely.viewed.resolve_right fun h => by simp [h.2] at hk
    rw [hstarts, hweaves, htypesets, hviewed]
    rfl
  · have hfailed : weaveFailed ((onHost host programs viewer target completion settings).run past
        { tree := t }).events = true := by
      rw [← weaveFailed_story, hs, weaveFailed_append,
        weaveFailed_of_decisive (hverdict.weaveFailed hk)]
      rfl
    have htypesets : typesets' = false := by
      rw [← Bool.not_eq_true, hin.typesets_iff, hfailed]
      exact fun h => Bool.noConfusion h.2
    have hviewed : viewed = [] := htimely.viewed.resolve_right fun h => by simp [h.2] at hk
    rw [hstarts, htypesets, hviewed]
    cases weaves' with
    | false => exact .inl rfl
    | true => simpa using htimely.woven

end Compilation

end Galley
