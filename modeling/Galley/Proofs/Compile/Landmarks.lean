import Galley.Proofs.Compile.CleanStart
import Galley.Proofs.Compile.Phases
import Galley.Proofs.Toolchain.Commands

/-!
# Landmarks of a compilation

The **landmarks** of a compilation are the phases that it enters, the programs that it starts and
the output of its driver, in one list. Where only some collaborators start programs, and only
certain ones (`Disciplined`), the landmarks of a stage are the phase that it enters and what these
start. `landmarks_attempt` puts them together: each landmark stands in its place in an `itinerary`.
-/

namespace Galley

open Work

/-- What the order of a run is told by. -/
inductive Landmark where
  | entered (phase : Phase)
  | started (s : Start)
  /-- The driver returned. -/
  | drove (result : ToolOutput)

/-- The landmark that an event is, if it is one. -/
def Event.landmark? : Event → Option Landmark
  | .entered phase => some (.entered phase)
  | .note n => n.start?.map .started
  | .drove result => some (.drove result)
  | _ => none

/-- The landmarks among events. -/
def landmarks (events : List Event) : List Landmark := events.filterMap Event.landmark?

@[simp]
theorem landmarks_nil : landmarks [] = [] := rfl

@[simp]
theorem landmarks_append (xs ys : List Event) :
    landmarks (xs ++ ys) = landmarks xs ++ landmarks ys :=
  List.filterMap_append ..

@[simp]
theorem landmarks_notes (notes : List Note) :
    landmarks (notes.map .note) = (startsOf notes).map .started := by
  rw [landmarks, List.filterMap_map, startsOf, List.map_filterMap]
  rfl

namespace Landmark

/-- The phase of a landmark. -/
def phase? : Landmark → Option Phase
  | .entered phase => some phase
  | _ => none

/-- The start of a landmark. -/
def start? : Landmark → Option Start
  | .started s => some s
  | _ => none

end Landmark

theorem phasesOf_eq (events : List Event) :
    phasesOf events = (landmarks events).filterMap Landmark.phase? := by
  rw [landmarks, List.filterMap_filterMap, phasesOf]
  refine List.filterMap_congr fun e _ => ?_
  cases e with
  | note n => cases n <;> rfl
  | _ => rfl

theorem starts_eq (events : List Event) :
    events.filterMap Event.start? = (landmarks events).filterMap Landmark.start? := by
  rw [landmarks, List.filterMap_filterMap]
  refine List.filterMap_congr fun e _ => ?_
  cases e with
  | note n => cases n <;> rfl
  | _ => rfl

namespace Compilation

/-! ### What collaborators start -/

/-- The start of R that evaluates an expression for a document. -/
def rStart (target : Path) (rscript expression : String) : Start :=
  ⟨[rscript, "-e", expression], some target.parent, none⟩

/-- The start that asks a program for its version. -/
def probeStart (program : Path) : Start := ⟨[toString program, "--version"], none, none⟩

/-- What the collaborators of a compilation start. Nothing is asked of the viewer. -/
structure Disciplined (c : Compilation) : Prop where
  weaver {target : Path} {directives : Directives} {past : List Note} {t : Tree} :
    Leads (c.weaver target directives).run past t fun _ notes _ => startsOf notes = [] ∨
      ∃ rscript expression, startsOf notes = [rStart target rscript expression]
  probe {program : Path} {past : List Note} {t : Tree} :
    Leads (c.probe program).run past t fun _ notes _ => startsOf notes = [probeStart program]
  driver {t : Tree} {d : Driver Stop} (h : c.driver t = .ok d) {tex : Path} {o : TexOptions}
    {past : List Note} {t' : Tree} : Leads (d.run tex o).run past t' fun r notes _ =>
      (∀ s ∈ startsOf notes, s.directory = some tex.parent) ∧
        ∀ out, r = .ok out → out.commands = (startsOf notes).map Start.command
  publisher {name : String} {past : List Note} {t : Tree} :
    Leads (c.publisher name).run past t fun _ notes _ => startsOf notes = []
  cleaner {cleanup : Cleanup} {past : List Note} {t : Tree} :
    Leads (c.cleaner cleanup).run past t fun _ notes _ => startsOf notes = []

/-! ### Landmarks of the stages -/

variable {c : Compilation} {past : List Event} {a : Attempt}

theorem leads_enter {phase : Phase} {Q : Unit → List Event → Attempt → Prop}
    (h : ∀ m, Q () [.note (.logged m), .entered phase] { a with phase }) :
    Leads (c.enter phase) past a Q :=
  h _

/-- A chore that starts nothing. -/
def Silent {α : Type} (w : Chore α) : Prop := Throughout (fun notes => startsOf notes = []) w

private theorem silent_bind {α β : Type} {w : Chore α} {f : α → Chore β} (hw : Silent w)
    (hf : ∀ x, Silent (f x)) : Silent (w >>= f) := by
  refine throughout_bind (fun {xs ys} hx hy => ?_) hw hf
  rw [startsOf_append, hx, hy, List.append_nil]

/-- Work of a compilation that enters no phase and starts nothing. -/
def Quiet {α : Type} (w : Work Event Attempt α) : Prop :=
  Throughout (fun events => landmarks events = []) w

private theorem quiet_append {xs ys : List Event} (hx : landmarks xs = [])
    (hy : landmarks ys = []) : landmarks (xs ++ ys) = [] := by
  rw [landmarks_append, hx, hy, List.append_nil]

theorem Quiet.leads {α : Type} {w : Work Event Attempt α} (h : Quiet w) :
    Leads w past a fun _ es _ => landmarks es = [] :=
  h past a

private theorem quiet_bind {α β : Type} {w : Work Event Attempt α} {f : α → Work Event Attempt β}
    (hw : Quiet w) (hf : ∀ x, Quiet (f x)) : Quiet (w >>= f) :=
  throughout_bind quiet_append hw hf

private theorem quiet_stage_bind {ε α β : Type} {w : ExceptT ε (Work Event Attempt) α}
    {f : α → ExceptT ε (Work Event Attempt) β} (hw : Quiet w.run) (hf : ∀ x, Quiet (f x).run) :
    Quiet (w >>= f).run :=
  throughout_stage_bind quiet_append hw hf

private theorem quiet_lift {ε α : Type} {w : Work Event Attempt α} (h : Quiet w) :
    Quiet (liftM w : ExceptT ε (Work Event Attempt) α).run :=
  throughout_lift h

private theorem quiet_lift_bind {ε α β : Type} {w : Work Event Attempt α}
    {f : α → ExceptT ε (Work Event Attempt) β} (hw : Quiet w) (hf : ∀ x, Quiet (f x).run) :
    Quiet ((liftM w : ExceptT ε (Work Event Attempt) α) >>= f).run :=
  quiet_stage_bind (quiet_lift hw) hf

private theorem quiet_pure {α : Type} (x : α) : Quiet (pure x) := fun _ _ => rfl

private theorem quiet_stage_pure {ε α : Type} (x : α) :
    Quiet (pure x : ExceptT ε (Work Event Attempt) α).run := fun _ _ => rfl

private theorem quiet_throw {ε α : Type} (e : ε) :
    Quiet (throw e : ExceptT ε (Work Event Attempt) α).run := fun _ _ => rfl

private theorem quiet_current : Quiet current := fun _ _ => rfl

theorem quiet_update (f : Attempt → Attempt) : Quiet (update f) := fun _ _ => rfl

theorem quiet_log (level : Level) (text : String) : Quiet (log level text) := fun _ _ => rfl

private theorem quiet_record {e : Event} (h : e.landmark? = none) : Quiet (record e) := by
  intro past a
  change landmarks [e] = []
  simp [landmarks, h]

private theorem quiet_chore {α : Type} {w : Chore α} (h : Silent w) : Quiet (chore w) := by
  intro past a
  change landmarks ((w (past.filterMap Event.note?) a.tree).events.map .note) = []
  rw [landmarks_notes, h, List.map_nil]

private theorem quiet_accept {α : Type} (role : Role) (r : Except Stop α) :
    Quiet (Stage.accept role r).run := by
  cases r with
  | ok x => exact quiet_stage_pure x
  | error stop => exact quiet_lift_bind (quiet_record rfl) fun _ => quiet_throw stop

private theorem quiet_displayAll (lines : List ProgressLine) : Quiet (displayAll lines) := by
  induction lines with
  | nil => exact quiet_pure ()
  | cons line rest ih => exact quiet_bind (quiet_record rfl) fun _ => ih

theorem quiet_removeStaleLogs (here tex : Path) : Quiet (chore (removeStaleLogs here tex)) := by
  have hone (p : Path) : Silent (removeStaleLog here p) := by
    refine silent_bind (fun _ _ => rfl) fun t => ?_
    split
    · exact silent_bind (fun _ _ => rfl) fun _ _ _ => rfl
    · exact fun _ _ => rfl
    · exact fun _ _ => rfl
  exact quiet_chore (silent_bind (hone _) fun _ => hone _)

theorem quiet_collect (here tex : Path) (concordance : Concordance) :
    Quiet (chore (Diagnostics.collect here tex concordance)) := by
  have hread (p : Path) (load : Tree → Path → Path → Except LogError (List Entry)) :
      Silent (Diagnostics.readEntries here p load) := by
    refine silent_bind (fun _ _ => rfl) fun t => ?_
    split
    · exact fun _ _ => rfl
    · split
      · exact fun _ _ => rfl
      · exact silent_bind (fun _ _ => rfl) fun _ _ _ => rfl
  refine quiet_chore (silent_bind (hread _ _) fun _ => ?_)
  split
  · exact fun _ _ => rfl
  · exact silent_bind (hread _ _) fun _ _ _ => rfl

variable (c)

private theorem quiet_checkTarget : Quiet c.checkTarget.run := by
  refine quiet_lift_bind quiet_current fun a => ?_
  split
  · exact quiet_throw _
  · exact quiet_stage_pure ()

private theorem quiet_readDirectives : Quiet c.readDirectives := by
  refine quiet_bind quiet_current fun a => ?_
  split
  · exact quiet_pure _
  · exact quiet_bind (quiet_log _ _) fun _ => quiet_pure _

private theorem quiet_chooseProgram (directives : Directives) : Quiet
    (c.chooseProgram directives).run := by
  rw [chooseProgram]
  split
  · exact quiet_throw _
  · refine quiet_lift_bind quiet_current fun a => ?_
    refine quiet_stage_bind (quiet_accept _ _) fun found => ?_
    split
    · exact quiet_throw _
    · exact quiet_lift_bind (quiet_log _ _) fun _ => quiet_stage_pure _

variable {c}

/-- Nothing is started while the document is validated. -/
theorem landmarks_validate : Leads c.validate.run past a fun _ es _ =>
    landmarks es = [.entered .validating] := by
  have hrest : Quiet (do
      let directives ← liftM c.readDirectives
      let program ← c.chooseProgram directives
      return (directives, program) : Stage _).run :=
    quiet_lift_bind c.quiet_readDirectives fun directives =>
      quiet_stage_bind (c.quiet_chooseProgram directives) fun _ => quiet_stage_pure _
  refine leads_lift_bind (leads_enter fun m => ?_)
  refine (Quiet.leads (quiet_stage_bind c.quiet_checkTarget fun _ => ?_)).imp fun _ _ _ h => ?_
  · split
    · exact quiet_lift_bind (quiet_update _) fun _ => hrest
    · exact hrest
  · rw [landmarks_append, h]
    rfl

private theorem landmarks_call {α : Type} {role : Role} {w : ExceptT Stop (Work Note Tree) α}
    {P : Except Stop α → List Start → Prop}
    (h : Leads w.run (past.filterMap Event.note?) a.tree fun r notes _ => P r (startsOf notes)) :
    Leads (Stage.call role w).run past a fun r es _ =>
      ∃ starts, landmarks es = starts.map .started ∧ P r starts := by
  refine leads_stage_bind (leads_lift (leads_chore (h.imp fun r notes t hp => ?_)))
  refine leads_accept ⟨startsOf notes, ?_, hp⟩
  cases r with
  | ok x => simp
  | error stop =>
    rw [landmarks_append, landmarks_notes]
    exact List.append_nil _

variable (c) in
/-- The landmarks of weaving: R is started at most once. -/
inductive WeavingMarks : List Landmark → Prop
  | plain : WeavingMarks []
  | woven {starts : List Start}
      (h : starts = [] ∨ ∃ rscript expression, starts = [rStart c.target rscript expression]) :
      WeavingMarks (.entered .weaving :: starts.map .started)

variable (c) in
/-- The landmarks of typesetting: the probe is started once, and then what the driver starts; a
driver that returns lists the commands of that. -/
inductive TypesetMarks : List Landmark → Prop
  | stopped (program : Path) {starts : List Start}
      (hd : ∀ s ∈ starts, s.directory = some (c.target.sibling ".tex").parent) :
      TypesetMarks
        (.entered .typesetting :: .started (probeStart program) :: starts.map .started)
  | driven (program : Path) {starts : List Start}
      (hd : ∀ s ∈ starts, s.directory = some (c.target.sibling ".tex").parent)
      {result : ToolOutput} (hc : result.commands = starts.map Start.command) :
      TypesetMarks (.entered .typesetting :: .started (probeStart program) ::
        (starts.map .started ++ [.drove result]))

private theorem landmarks_weaveLiterate (hc : c.Disciplined) {directives : Directives} :
    Leads (c.weaveLiterate directives).run past a fun _ es _ => c.WeavingMarks (landmarks es) := by
  rw [weaveLiterate]
  split
  · refine leads_lift_bind (leads_enter fun m => leads_stage_bind ?_)
    refine (landmarks_call (P := fun _ starts => starts = [] ∨
      ∃ rscript expression, starts = [rStart c.target rscript expression]) hc.weaver).imp ?_
    rintro (stop | result) es a' ⟨starts, hes, hstarts⟩
    · rw [landmarks_append, hes]
      exact .woven hstarts
    · refine leads_lift_bind (leads_record ?_)
      refine (Quiet.leads ?_).imp fun _ es' _ h => ?_
      · split
        · exact quiet_stage_pure _
        · exact quiet_throw _
      · rw [landmarks_append, landmarks_append, landmarks_append, hes, h, List.append_nil]
        change c.WeavingMarks (.entered .weaving :: (starts.map .started ++ []))
        rw [List.append_nil]
        exact .woven hstarts
  · exact leads_stage_pure .plain

private theorem landmarks_probeVersion (hc : c.Disciplined) {program : Path} :
    Leads (c.probeVersion program).run past a fun _ es _ =>
      landmarks es = [.started (probeStart program)] := by
  refine leads_stage_bind (leads_lift (leads_chore (hc.probe.imp fun r notes t hn => ?_)))
  refine (Quiet.leads ?_).imp fun _ es _ h => ?_
  · split
    · exact quiet_lift_bind (quiet_log _ _) fun _ => quiet_stage_pure _
    · refine quiet_lift_bind (quiet_record rfl) fun _ => ?_
      split
      · refine quiet_lift_bind (quiet_log _ _) fun _ => ?_
        exact quiet_lift_bind (quiet_record rfl) fun _ => quiet_stage_pure _
      · exact quiet_throw _
  · rw [landmarks_append, landmarks_notes, hn, h]
    rfl

/-- The driver returns behind all that it started. -/
private theorem landmarks_drive (hc : c.Disciplined) {tex : Path} {o : TexOptions} :
    Leads (c.drive tex o).run past a fun _ es _ => ∃ starts : List Start,
      (∀ s ∈ starts, s.directory = some tex.parent) ∧
        (landmarks es = starts.map .started ∨
          ∃ result : ToolOutput, landmarks es = starts.map .started ++ [.drove result] ∧
            result.commands = starts.map Start.command) := by
  refine leads_lift_bind (leads_current (leads_stage_bind (leads_accept ?_)))
  cases hd : c.driver a.tree with
  | error stop => exact ⟨[], by simp, .inl rfl⟩
  | ok driver =>
    refine leads_lift_bind (leads_chore (leads_log (leads_lift_bind (leads_record ?_))))
    refine leads_stage_bind ((landmarks_call (P := fun r starts =>
      (∀ s ∈ starts, s.directory = some tex.parent) ∧
        ∀ out, r = .ok out → out.commands = starts.map Start.command) (hc.driver hd)).imp ?_)
    rintro (stop | result) es a' ⟨starts, hes, hdir, hcommands⟩
    · exact ⟨starts, hdir, .inl hes⟩
    · refine leads_lift_bind (leads_record (leads_lift (leads_update ?_)))
      refine ⟨starts, hdir, .inr ⟨result, ?_, hcommands result rfl⟩⟩
      change landmarks (es ++ [.drove result]) = _
      rw [landmarks_append, hes]
      rfl

private theorem landmarks_typeset (hc : c.Disciplined) {program : Path} :
    Leads (c.typeset program).run past a fun _ es _ => c.TypesetMarks (landmarks es) := by
  refine leads_lift_bind (leads_enter fun m => leads_lift_bind (leads_update ?_))
  refine leads_stage_bind ((landmarks_probeVersion hc).imp ?_)
  rintro (stop | version) es a' hes
  · rw [landmarks_append, landmarks_append, hes]
    exact @TypesetMarks.stopped c program [] (by simp)
  · refine leads_lift_bind ((quiet_removeStaleLogs _ _).leads.imp fun _ es' a'' hquiet => ?_)
    refine leads_stage_bind ((landmarks_drive hc).imp ?_)
    -- behind the probe come the landmarks of the driver, and they are the last ones
    have hmarks : ∀ es'', landmarks ([Event.note (.logged m), .entered .typesetting] ++
        ([] ++ (es ++ (es' ++ es'')))) =
          .entered .typesetting :: .started (probeStart program) :: landmarks es'' := by
      intro es''
      rw [landmarks_append, landmarks_append, landmarks_append, landmarks_append, hes, hquiet]
      rfl
    have hdriven {es'' : List Event} (h : ∃ starts : List Start,
        (∀ s ∈ starts, s.directory = some (c.target.sibling ".tex").parent) ∧
          (landmarks es'' = starts.map .started ∨
            ∃ result : ToolOutput, landmarks es'' = starts.map .started ++ [.drove result] ∧
              result.commands = starts.map Start.command)) :
        c.TypesetMarks (.entered .typesetting :: .started (probeStart program) ::
          landmarks es'') := by
      obtain ⟨starts, hdir, h | ⟨result, h, hcommands⟩⟩ := h <;> rw [h]
      · exact .stopped program hdir
      · exact .driven program hdir hcommands
    rintro (stop | x) es'' a' h
    · rw [hmarks]
      exact hdriven h
    · refine leads_stage_pure ?_
      rw [hmarks, List.append_nil]
      exact hdriven h

/-- Only the viewer may start something for the PDF. -/
private theorem landmarks_runCompletion (hc : c.Disciplined) {pdf : Path} :
    Leads (c.runCompletion pdf) past a fun _ es _ => ∃ starts : List Start,
      landmarks es = starts.map .started ∧ (starts = [] ∨ c.completion = .view) := by
  have hcomplete : Leads (c.complete pdf).run past a fun _ es _ => ∃ starts : List Start,
      landmarks es = starts.map .started ∧ (starts = [] ∨ c.completion = .view) := by
    rw [complete]
    cases hview : c.completion with
    | none => exact leads_stage_pure ⟨[], rfl, .inl rfl⟩
    | view =>
      refine leads_lift_bind (leads_record ?_)
      exact ⟨_, landmarks_notes _, .inr rfl⟩
    | publish =>
      cases c.home with
      | none => exact leads_throw ⟨[], rfl, .inl rfl⟩
      | some home =>
        refine leads_lift_bind (leads_record ?_)
        exact ⟨_, landmarks_notes _, .inl hc.publisher⟩
  refine leads_bind (hcomplete.imp ?_)
  rintro r es a' ⟨starts, hes, hstarts⟩
  refine (Quiet.leads ?_).imp fun _ es' _ h => ⟨starts, ?_, hstarts⟩
  · split
    · exact quiet_pure ()
    · exact quiet_bind (quiet_log _ _) fun _ => quiet_record rfl
  · rw [landmarks_append, hes, h, List.append_nil]

/-- A toolchain that failed is reported without a start. -/
private theorem quiet_diagnose {program tex : Path} {concordance : Concordance}
    {result : ToolOutput} : Quiet (c.diagnose program tex concordance result).run := by
  refine quiet_lift_bind (quiet_record rfl) fun _ => quiet_lift_bind (quiet_update _) fun _ => ?_
  refine quiet_lift_bind (quiet_collect _ _ _) fun collected => ?_
  cases collected with
  | error e => exact quiet_lift_bind (quiet_record rfl) fun _ => quiet_throw _
  | ok d =>
    refine quiet_lift_bind (quiet_record rfl) fun _ => ?_
    refine quiet_lift_bind (quiet_displayAll _) fun _ => ?_
    split
    · exact quiet_throw _
    · exact quiet_throw _
    · split
      · exact quiet_stage_pure _
      · exact quiet_throw _

private theorem landmarks_report (hc : c.Disciplined) {program tex : Path}
    {concordance : Concordance} :
    Leads (c.report program tex concordance).run past a fun r es _ => ∃ starts : List Start,
      landmarks es = .entered .reporting :: starts.map .started ∧
        (starts = [] ∨ c.completion = .view ∧ ∃ o, r = .ok o ∧ o.kind = .success) := by
  refine leads_lift_bind (leads_enter fun m => leads_lift_bind (leads_current ?_))
  dsimp only
  split
  · refine leads_lift (leads_bind (leads_record (leads_bind ?_)))
    refine (landmarks_runCompletion hc).imp ?_
    rintro - es a' ⟨starts, hes, hstarts⟩
    refine ⟨starts, ?_, hstarts.imp_right fun h => ⟨h, _, rfl, rfl⟩⟩
    change .entered .reporting :: landmarks (es ++ []) = _
    rw [List.append_nil, hes]
  · refine quiet_diagnose.leads.imp fun r es _ h => ⟨[], ?_, .inl rfl⟩
    rw [landmarks_append, landmarks_append, h]
    rfl

/-! ### Landmarks of a run -/

variable (c) in
/-- The landmarks of a compilation that is not stopped, or until it is. -/
inductive Route : Except Stop Outcome → List Landmark → Prop
  | woven (stop : Stop) {ws : List Landmark} (hw : c.WeavingMarks ws) :
      Route (.error stop) (.entered .validating :: ws)
  | typeset (stop : Stop) {ws ts : List Landmark} (hw : c.WeavingMarks ws)
      (ht : c.TypesetMarks ts) : Route (.error stop) (.entered .validating :: (ws ++ ts))
  | reported {r : Except Stop Outcome} {ws ts : List Landmark} {viewed : List Start}
      (hw : c.WeavingMarks ws) (ht : c.TypesetMarks ts)
      (hv : viewed = [] ∨ c.completion = .view ∧ ∃ o, r = .ok o ∧ o.kind = .success) :
      Route r (.entered .validating :: (ws ++ (ts ++ .entered .reporting :: viewed.map .started)))

private theorem landmarks_pipeline (hc : c.Disciplined) :
    Leads c.pipeline.run past a fun r es _ => c.Route r (landmarks es) := by
  refine leads_stage_bind (landmarks_validate.imp ?_)
  rintro (stop | ⟨directives, program⟩) es a' hes
  · rw [hes]
    exact .woven stop .plain
  refine leads_stage_bind ((landmarks_weaveLiterate hc).imp ?_)
  rintro (stop | concordance) ws a' hw
  · rw [landmarks_append, hes]
    exact .woven stop hw
  refine leads_stage_bind ((landmarks_typeset hc).imp ?_)
  rintro (stop | tex) ts a' ht
  · rw [landmarks_append, landmarks_append, hes, List.singleton_append]
    exact .typeset stop hw ht
  refine (landmarks_report hc).imp ?_
  rintro r rs a' ⟨viewed, hviewed, hv⟩
  rw [landmarks_append, landmarks_append, landmarks_append, hes, hviewed, List.singleton_append]
  exact .reported hw ht hv

private theorem landmarks_fail {stop : Stop} : Leads (c.fail stop) past a fun o es _ =>
    landmarks es = [.entered .reporting] ∧ o.kind ≠ .success := by
  have told : ∀ past a, Leads (do
      c.enter .reporting
      let a ← current
      if a.typesetting then keepLogs
      display (.error (stop.message ++ "\n"))
      return stop.outcome a.result) past a fun o es _ =>
        landmarks es = [.entered .reporting] ∧ o.kind ≠ .success := by
    intro past a
    refine leads_bind (leads_enter fun m => leads_bind (leads_current ?_))
    split <;> exact ⟨rfl, stop.kind_ne_success⟩
  cases stop with
  | crash e => exact leads_bind (leads_chore (leads_log (told _ _)))
  | _ => exact told _ _

/-- The landmarks of a run, by its phases, by what weaving, the driver and the viewer start, by the
program that is typeset with and by what the driver returns. -/
def itinerary (weaves typesets again : Bool) (woven driven viewed : List Start) (program : Path)
    (result? : Option ToolOutput) : List Landmark :=
  .entered .validating ::
    ((if weaves then .entered .weaving :: woven.map .started else []) ++
      ((if typesets then .entered .typesetting :: .started (probeStart program) ::
          (driven.map .started ++ result?.toList.map .drove) else []) ++
        (.entered .reporting :: (viewed.map .started ++
          ((if again then [.entered .reporting] else []) ++ [.entered .finished])))))

variable (c) in
/-- What is started in the phases of a run with an outcome. -/
structure Timely (o : Outcome) (woven driven viewed : List Start) (result? : Option ToolOutput) :
    Prop where
  /-- R is started at most once. -/
  woven : woven = [] ∨ ∃ rscript expression, woven = [rStart c.target rscript expression]
  /-- What the driver starts is no probe. -/
  directory : ∀ s ∈ driven, s.directory = some (c.target.sibling ".tex").parent
  commands : ∀ result, result? = some result → result.commands = driven.map Start.command
  viewed : viewed = [] ∨ c.completion = .view ∧ o.kind = .success

private theorem WeavingMarks.exists_eq {ws : List Landmark} (h : c.WeavingMarks ws) :
    ∃ (weaves : Bool) (woven : List Start),
      ws = (if weaves then .entered .weaving :: woven.map .started else []) ∧
      (woven = [] ∨ ∃ rscript expression, woven = [rStart c.target rscript expression]) := by
  cases h with
  | plain => exact ⟨false, [], rfl, .inl rfl⟩
  | @woven starts h => exact ⟨true, starts, rfl, h⟩

private theorem TypesetMarks.exists_eq {ts : List Landmark} (h : c.TypesetMarks ts) :
    ∃ (driven : List Start) (program : Path) (result? : Option ToolOutput),
      ts = .entered .typesetting :: .started (probeStart program) ::
        (driven.map .started ++ result?.toList.map .drove) ∧
      (∀ s ∈ driven, s.directory = some (c.target.sibling ".tex").parent) ∧
      ∀ result, result? = some result → result.commands = driven.map Start.command := by
  cases h with
  | @stopped program starts hd => exact ⟨starts, program, none, by simp, hd, nofun⟩
  | @driven program starts hd result hc =>
    refine ⟨starts, program, some result, by simp, hd, ?_⟩
    rintro _ ⟨⟩
    exact hc

/-- The landmarks of an attempt and its end. -/
theorem landmarks_attempt (hc : c.Disciplined) : Leads c.attempt past a fun o es _ =>
    ∃ (weaves typesets again : Bool) (woven driven viewed : List Start) (program : Path)
      (result? : Option ToolOutput),
      landmarks es ++ [.entered .finished] =
        itinerary weaves typesets again woven driven viewed program result? ∧
      c.Timely o woven driven viewed result? := by
  refine leads_bind ((landmarks_pipeline hc).imp ?_)
  rintro (stop | o) es a' hroute
  · refine landmarks_fail.imp ?_
    rintro o es' a' ⟨hes', hk⟩
    rw [landmarks_append, hes', List.append_assoc]
    generalize landmarks es = marks at hroute
    cases hroute with
    | woven _ hw =>
      obtain ⟨weaves, woven, rfl, hwoven⟩ := hw.exists_eq
      refine ⟨weaves, false, false, woven, [], [], Path.ofString "", none, ?_, hwoven, ?_, ?_, ?_⟩
      · simp [itinerary]
      · simp
      · simp
      · exact .inl rfl
    | typeset _ hw ht =>
      obtain ⟨weaves, woven, rfl, hwoven⟩ := hw.exists_eq
      obtain ⟨driven, program, result?, rfl, hdir, hcommands⟩ := ht.exists_eq
      refine ⟨weaves, true, false, woven, driven, [], program, result?, ?_, hwoven, hdir,
        hcommands, .inl rfl⟩
      simp [itinerary]
    | @reported _ _ _ viewed hw ht hv =>
      obtain ⟨weaves, woven, rfl, hwoven⟩ := hw.exists_eq
      obtain ⟨driven, program, result?, rfl, hdir, hcommands⟩ := ht.exists_eq
      refine ⟨weaves, true, true, woven, driven, viewed, program, result?, ?_, hwoven, hdir,
        hcommands, ?_⟩
      · simp [itinerary]
      · obtain hv | ⟨-, o', ho, -⟩ := hv
        · exact .inl hv
        · cases ho
  · refine leads_pure ?_
    rw [List.append_nil]
    generalize landmarks es = marks at hroute
    cases hroute with
    | @reported _ _ _ viewed hw ht hv =>
      obtain ⟨weaves, woven, rfl, hwoven⟩ := hw.exists_eq
      obtain ⟨driven, program, result?, rfl, hdir, hcommands⟩ := ht.exists_eq
      refine ⟨weaves, true, false, woven, driven, viewed, program, result?, ?_, hwoven, hdir,
        hcommands, hv.imp_right ?_⟩
      · simp [itinerary]
      · rintro ⟨hview, o', ⟨⟩, hk⟩
        exact ⟨hview, hk⟩

end Compilation

end Galley
