import Galley.Proofs.Compile.Landmarks
import Galley.Proofs.Diagnostics.Merged
import Galley.Proofs.Program.Replay

/-!
# Safety along a run

Two things are followed from the beginning of an attempt to its end: that every program that is
started is right in the tree that it finds, and that a property of the tree is kept unless a
program breaks it. They are followed together, since it is the same collaborators that start
programs and that change the tree: `sound_carryOut`. Of the collaborators it is asked only that
they are `Secure` once a TeX program is chosen, and of the logs that their removal keeps the
property.
-/

namespace Galley

open Work

/-- Whether notes tell only of right starts, and end where a property of the tree is kept unless a
program breaks it. -/
def Safe (programs : Programs) (right : Start → Tree → Prop) (I : Tree → Prop) (past : List Note)
    (t : Tree) (notes : List Note) (t' : Tree) : Prop :=
  (∀ s u status, .started s u status ∈ notes → right s u) ∧
    (I t → Granted (programs.Keeps I) past notes → I t')

theorem Replays.safe {programs : Programs} {right right' : Start → Tree → Prop} {I : Tree → Prop}
    {past notes : List Note} {t t' : Tree} (h : Replays programs right' past t notes t')
    (hr : ∀ s u, right' s u → right s u) : Safe programs right I past t notes t' :=
  ⟨fun s u _ hs => hr s u (h.of_mem hs), h.keeps⟩

/-- Whether an event keeps a property of the tree: only a start can break it. -/
def Event.Keeps (programs : Programs) (I : Tree → Prop) (past : List Event) (e : Event) : Prop :=
  ∀ n, e.note? = some n → programs.Keeps I (past.filterMap Event.note?) n

namespace Compilation

variable {c : Compilation} {programs : Programs} {right : Start → Tree → Prop} {I : Tree → Prop}
  {past : List Event} {a : Attempt}

/-! ### Events -/

/-- Whether every start among events is right in the tree that it finds. -/
def Starts (right : Start → Tree → Prop) (events : List Event) : Prop :=
  ∀ s t status, .note (.started s t status) ∈ events → right s t

theorem Starts.append {xs ys : List Event} (hx : Starts right xs) (hy : Starts right ys) :
    Starts right (xs ++ ys) := by
  intro s t status h
  obtain h | h := List.mem_append.mp h
  · exact hx s t status h
  · exact hy s t status h

/-- Where nothing is started nothing wrong is. -/
theorem starts_of_nil {events : List Event} (h : events.filterMap Event.start? = []) :
    Starts right events := by
  intro s t status he
  have hs : s ∈ events.filterMap Event.start? := List.mem_filterMap.mpr ⟨_, he, rfl⟩
  rw [h] at hs
  cases hs

/-- The same of the events of a compilation. -/
def Sound (programs : Programs) (right : Start → Tree → Prop) (I : Tree → Prop)
    (past : List Event) (t : Tree) (events : List Event) (t' : Tree) : Prop :=
  Starts right events ∧ (I t → Granted (Event.Keeps programs I) past events → I t')

private theorem Sound.append {xs ys : List Event} {t u v : Tree}
    (h : Sound programs right I past t xs u) (h' : Sound programs right I (past ++ xs) u ys v) :
    Sound programs right I past t (xs ++ ys) v := by
  refine ⟨h.1.append h'.1, fun ht hg => ?_⟩
  obtain ⟨hx, hy⟩ := granted_append.mp hg
  exact h'.2 (h.2 ht hx) hy

/-- Nothing is started, and the tree is as it was. -/
private theorem sound_still {events : List Event} (h : events.filterMap Event.start? = [])
    {t : Tree} : Sound programs right I past t events t :=
  ⟨starts_of_nil h, fun ht _ => ht⟩

private theorem granted_notes {notes : List Note}
    (h : Granted (Event.Keeps programs I) past (notes.map .note)) :
    Granted (programs.Keeps I) (past.filterMap Event.note?) notes := by
  induction notes generalizing past with
  | nil => trivial
  | cons n notes ih =>
    obtain ⟨hn, hrest⟩ := h
    have hnotes := ih hrest
    rw [List.filterMap_append] at hnotes
    exact ⟨hn n rfl, hnotes⟩

private theorem Sound.of_notes {notes : List Note} {t t' : Tree}
    (h : Safe programs right I (past.filterMap Event.note?) t notes t') :
    Sound programs right I past t (notes.map .note) t' := by
  refine ⟨fun s u status hs => h.1 s u status (by simpa using hs), fun ht hg => ?_⟩
  exact h.2 ht (granted_notes hg)

/-! ### Rules -/

variable (programs right I) in
/-- Work that is sound wherever it is started. -/
def IsSound {α : Type} (w : Work Event Attempt α) : Prop :=
  ∀ past a, Leads w past a fun _ es a' => Sound programs right I past a.tree es a'.tree

section Rules

variable {ε α β : Type}

private theorem isSound_bind {w : Work Event Attempt α} {f : α → Work Event Attempt β}
    (hw : IsSound programs right I w) (hf : ∀ x, IsSound programs right I (f x)) :
    IsSound programs right I (w >>= f) :=
  fun past a => (hw past a).append (hf _ _ _)

/-- What comes second may be sound only where the first part ends. -/
private theorem sound_stage_bind {w : ExceptT ε (Work Event Attempt) α}
    {f : α → ExceptT ε (Work Event Attempt) β}
    (h : Leads w.run past a fun r es a' => Sound programs right I past a.tree es a'.tree ∧
      ∀ x, r = .ok x → Leads (f x).run (past ++ es) a' fun _ es' a'' =>
        Sound programs right I (past ++ es) a'.tree es' a''.tree) :
    Leads (w >>= f).run past a fun _ es a' =>
      Sound programs right I past a.tree es a'.tree := by
  have hchains : Chains fun past (a : Attempt) es a' =>
      Sound programs right I past a.tree es a'.tree := fun _ _ _ _ _ _ => Sound.append
  exact hchains.stage_bind h

private theorem isSound_stage_bind {w : ExceptT ε (Work Event Attempt) α}
    {f : α → ExceptT ε (Work Event Attempt) β} (hw : IsSound programs right I w.run)
    (hf : ∀ x, IsSound programs right I (f x).run) : IsSound programs right I (w >>= f).run :=
  fun past a => sound_stage_bind ((hw past a).imp fun _ _ _ h => ⟨h, fun x _ => hf x _ _⟩)

private theorem isSound_lift {w : Work Event Attempt α} (hw : IsSound programs right I w) :
    IsSound programs right I (liftM w : ExceptT ε (Work Event Attempt) α).run :=
  fun past a => leads_lift (hw past a)

private theorem isSound_lift_bind {w : Work Event Attempt α}
    {f : α → ExceptT ε (Work Event Attempt) β}
    (hw : IsSound programs right I w) (hf : ∀ x, IsSound programs right I (f x).run) :
    IsSound programs right I ((liftM w : ExceptT ε (Work Event Attempt) α) >>= f).run :=
  isSound_stage_bind (isSound_lift hw) hf

private theorem isSound_pure (x : α) : IsSound programs right I (pure x) :=
  fun _ _ => sound_still rfl

private theorem isSound_stage_pure (x : α) :
    IsSound programs right I (pure x : ExceptT ε (Work Event Attempt) α).run :=
  fun _ _ => sound_still rfl

private theorem isSound_throw (e : ε) :
    IsSound programs right I (throw e : ExceptT ε (Work Event Attempt) α).run :=
  fun _ _ => sound_still rfl

private theorem isSound_current : IsSound programs right I current :=
  fun _ _ => leads_current (sound_still rfl)

private theorem isSound_update {f : Attempt → Attempt} (h : ∀ a, (f a).tree = a.tree) :
    IsSound programs right I (update f) := by
  intro past a
  refine leads_update ?_
  rw [h]
  exact sound_still rfl

private theorem isSound_record {e : Event} (h : e.start? = none) : IsSound programs right I
    (record e) :=
  fun _ _ => leads_record (sound_still (by simp [h]))

private theorem isSound_log (level : Level) (text : String) : IsSound programs right I
    (log level text) :=
  isSound_record (e := .note (.logged _)) rfl

private theorem isSound_logAll (ms : List Message) : IsSound programs right I (logAll ms) := by
  induction ms with
  | nil => exact isSound_pure ()
  | cons m rest ih => exact isSound_bind (isSound_record rfl) fun _ => ih

private theorem isSound_displayAll (lines : List ProgressLine) :
    IsSound programs right I (displayAll lines) := by
  induction lines with
  | nil => exact isSound_pure ()
  | cons line rest ih => exact isSound_bind (isSound_record rfl) fun _ => ih

private theorem isSound_enter (phase : Phase) : IsSound programs right I (c.enter phase) :=
  fun _ _ => leads_enter fun _ => sound_still rfl

private theorem isSound_keepLogs : IsSound programs right I keepLogs := isSound_update fun _ => rfl

/-- A collaborator that is called. -/
private theorem sound_call {role : Role} {w : ExceptT Stop (Work Note Tree) α}
    (h : Leads w.run (past.filterMap Event.note?) a.tree fun _ notes t =>
      Safe programs right I (past.filterMap Event.note?) a.tree notes t) :
    Leads (Stage.call role w).run past a fun _ es a' =>
      Sound programs right I past a.tree es a'.tree := by
  refine leads_stage_bind (leads_lift (leads_chore (h.imp fun r notes t hs => leads_accept ?_)))
  refine (Sound.of_notes hs).append (sound_still ?_)
  cases r <;> rfl

private theorem isSound_chore {w : Chore α}
    (h : ∀ past t, Leads w past t fun _ notes t' => Safe programs right I past t notes t') :
    IsSound programs right I (chore w) :=
  fun _ _ => leads_chore ((h _ _).imp fun _ _ _ hs => .of_notes hs)

/-- A chore that starts nothing has only to keep the property. -/
private theorem isSound_chore_of_quiet {w : Chore α} (hw : Quiet (chore w))
    (hI : ∀ past t, I t → I (w past t).state) : IsSound programs right I (chore w) := by
  intro past a
  refine ⟨starts_of_nil ?_, fun h _ => hI _ _ h⟩
  rw [starts_eq, hw past a]
  rfl

end Rules

/-! ### Collaborators -/

/-- Whether a TeX program is the one of the document in a tree. -/
def Chosen (c : Compilation) (t : Tree) (program : Path) : Prop :=
  ∃ name found, c.programIn t = .ok name ∧ c.which t name = .ok (some found) ∧
    program = c.here.join (Path.ofString found)

/-- Whether the collaborators of a compilation from the tree `t` start what is right, and keep a
property of the tree unless a program breaks it. -/
structure Secure (c : Compilation) (t : Tree) (programs : Programs)
    (right : Start → Tree → Prop) (I : Tree → Prop) : Prop where
  weaver (h : c.isLiterate = true) (directives : Directives) (past : List Note) (u : Tree) :
    Leads (c.weaver c.target directives).run past u fun _ notes u' =>
      Safe programs right I past u notes u'
  probe {program : Path} (h : c.Chosen t program) (past : List Note) (u : Tree) :
    Leads (c.probe program).run past u fun _ notes u' => Safe programs right I past u notes u'
  driver {u : Tree} {d : Driver Stop} (hd : c.driver u = .ok d) {program : Path}
    (h : c.Chosen t program) (version : String) (past : List Note) :
    Leads (d.run (c.target.sibling ".tex")
      { program, shellEscape := c.settings.shellEscape, version }).run past u
      fun _ notes u' => Safe programs right I past u notes u'
  viewer (h : c.completion = .view) (past : List Note) (u : Tree) :
    Leads (c.viewer (pdfPath c.target)).run past u fun _ notes u' =>
      Safe programs right I past u notes u'
  publisher (name : String) (past : List Note) (u : Tree) :
    Leads (c.publisher name).run past u fun _ notes u' => Safe programs right I past u notes u'
  /-- The removal of the logs of an earlier run keeps the property. -/
  stale (past : List Note) (u : Tree) (hu : I u) :
    I (removeStaleLogs c.here (c.target.sibling ".tex") past u).state

/-! ### Stages -/

section Stages

variable {t : Tree}

private theorem chosen_of_validating {r : Except Stop (Directives × Path)} {es : List Event}
    (h : c.Validating t r es) {x : Directives × Path} (hr : r = .ok x) : c.Chosen t x.2 := by
  cases h with
  | chosen _ hp hw =>
    cases hr
    exact ⟨_, _, hp, hw, rfl⟩
  | rejected | unsupported | raised | missing => cases hr

/-- Validating starts nothing, and it chooses the program by the tree as it is. -/
private theorem leads_validate : Leads c.validate.run past a fun r es a' =>
    (∀ x, r = .ok x → c.Chosen a.tree x.2) ∧ a'.tree = a.tree ∧
      es.filterMap Event.start? = [] := by
  obtain ⟨hv, ha⟩ := meets_validate (c := c) (a := a) past
  have hmarks : Leads c.validate.run past a fun _ es _ => landmarks es = [.entered .validating] :=
    landmarks_validate
  refine ⟨fun x hx => chosen_of_validating hv hx, by rw [ha], ?_⟩
  rw [starts_eq, hmarks]
  rfl

variable (hc : c.Secure t programs right I)

include hc

private theorem isSound_weaveLiterate (directives : Directives) :
    IsSound programs right I (c.weaveLiterate directives).run := by
  rw [weaveLiterate]
  split
  · next hl =>
    refine isSound_lift_bind (isSound_enter _) fun _ => isSound_stage_bind ?_ fun result => ?_
    · exact fun past a => sound_call (hc.weaver hl directives _ _)
    · refine isSound_lift_bind (isSound_record rfl) fun _ => ?_
      split
      · exact isSound_stage_pure _
      · exact isSound_throw _
  · exact isSound_stage_pure _

private theorem isSound_probeVersion {program : Path} (hp : c.Chosen t program) :
    IsSound programs right I (c.probeVersion program).run := by
  refine isSound_stage_bind (isSound_lift (isSound_chore (hc.probe hp))) fun r => ?_
  split
  · exact isSound_lift_bind (isSound_log _ _) fun _ => isSound_stage_pure _
  · refine isSound_lift_bind (isSound_record rfl) fun _ => ?_
    split
    · refine isSound_lift_bind (isSound_log _ _) fun _ => ?_
      exact isSound_lift_bind (isSound_record rfl) fun _ => isSound_stage_pure _
    · exact isSound_throw _

private theorem isSound_drive {program : Path} (hp : c.Chosen t program) (version : String) :
    IsSound programs right I (c.drive (c.target.sibling ".tex")
      { program, shellEscape := c.settings.shellEscape, version }).run := by
  intro past a
  refine sound_stage_bind (leads_lift (leads_current ⟨sound_still rfl, ?_⟩))
  rintro _ ⟨⟩
  refine sound_stage_bind (leads_accept ⟨sound_still ?_, fun driver hd => ?_⟩)
  · cases c.driver a.tree <;> rfl
  -- the driver is called in the tree that it was chosen by
  refine sound_stage_bind (leads_lift (leads_chore (leads_log ⟨sound_still rfl, ?_⟩)))
  rintro _ ⟨⟩
  refine sound_stage_bind (leads_lift (leads_record ⟨sound_still rfl, ?_⟩))
  rintro _ ⟨⟩
  refine sound_stage_bind ((sound_call (hc.driver hd hp version _)).imp ?_)
  refine fun r es a' hs => ⟨hs, fun result _ => ?_⟩
  have hrest : IsSound programs right I (do
      record (.drove result)
      update fun a => { a with result := some result } : Stage Unit).run :=
    isSound_lift_bind (isSound_record rfl) fun _ => isSound_lift (isSound_update fun _ => rfl)
  exact hrest _ _

private theorem isSound_typeset {program : Path} (hp : c.Chosen t program) :
    IsSound programs right I (c.typeset program).run := by
  refine isSound_lift_bind (isSound_enter _) fun _ => ?_
  refine isSound_lift_bind (isSound_update fun _ => rfl) fun _ => ?_
  refine isSound_stage_bind (isSound_probeVersion hc hp) fun version => ?_
  refine isSound_lift_bind (isSound_chore_of_quiet (quiet_removeStaleLogs _ _) hc.stale) fun _ => ?_
  exact isSound_stage_bind (isSound_drive hc hp version) fun _ => isSound_stage_pure _

private theorem isSound_runCompletion : IsSound programs right I
    (c.runCompletion (pdfPath c.target)) := by
  have hcomplete : IsSound programs right I (c.complete (pdfPath c.target)).run := by
    rw [complete]
    split
    · exact isSound_stage_pure _
    · next hview =>
      refine isSound_lift_bind (isSound_record rfl) fun _ => ?_
      exact isSound_chore (hc.viewer hview)
    · split
      · exact isSound_throw _
      · refine isSound_lift_bind (isSound_record rfl) fun _ => ?_
        exact isSound_chore (hc.publisher _)
  refine isSound_bind hcomplete fun r => ?_
  split
  · exact isSound_pure _
  · exact isSound_bind (isSound_log _ _) fun _ => isSound_record rfl

omit hc in
private theorem isSound_diagnose {program tex : Path} {concordance : Concordance}
    {result : ToolOutput} :
    IsSound programs right I (c.diagnose program tex concordance result).run := by
  have hcollect : IsSound programs right I
      (chore (Diagnostics.collect c.here tex concordance)) := by
    refine isSound_chore_of_quiet (quiet_collect _ _ _) fun past u hu => ?_
    simpa only [Diagnostics.state_collect] using hu
  refine isSound_lift_bind (isSound_record rfl) fun _ => ?_
  refine isSound_lift_bind isSound_keepLogs fun _ => isSound_lift_bind hcollect fun collected => ?_
  cases collected with
  | error e => exact isSound_lift_bind (isSound_record rfl) fun _ => isSound_throw _
  | ok d =>
    refine isSound_lift_bind (isSound_record rfl) fun _ => ?_
    refine isSound_lift_bind (isSound_displayAll _) fun _ => ?_
    split
    · exact isSound_throw _
    · exact isSound_throw _
    · split
      · exact isSound_stage_pure _
      · exact isSound_throw _

private theorem isSound_report {program tex : Path} {concordance : Concordance} :
    IsSound programs right I (c.report program tex concordance).run := by
  refine isSound_lift_bind (isSound_enter _) fun _ => isSound_lift_bind isSound_current fun a => ?_
  dsimp only
  split
  · refine isSound_lift (isSound_bind (isSound_record rfl) fun _ => ?_)
    exact isSound_bind (isSound_runCompletion hc) fun _ => isSound_pure _
  · exact isSound_diagnose

/-- The program is chosen by the tree that the attempt begins with. -/
private theorem sound_pipeline (ha : a.tree = t) :
    Leads c.pipeline.run past a fun _ es a' =>
      Sound programs right I past a.tree es a'.tree := by
  refine sound_stage_bind (leads_validate.imp ?_)
  rintro r es a' ⟨hchosen, htree, hstarts⟩
  rw [htree]
  refine ⟨sound_still hstarts, fun x hx => ?_⟩
  have hp : c.Chosen t x.2 := ha ▸ hchosen x hx
  have hrest : IsSound programs right I (do
      let concordance ← c.weaveLiterate x.1
      let tex ← c.typeset x.2
      c.report x.2 tex concordance : Stage Outcome).run := by
    refine isSound_stage_bind (isSound_weaveLiterate hc _) fun concordance => ?_
    exact isSound_stage_bind (isSound_typeset hc hp) fun tex => isSound_report hc
  rw [← htree]
  exact hrest _ _

omit hc in
private theorem isSound_fail (stop : Stop) : IsSound programs right I (c.fail stop) := by
  have told : IsSound programs right I (do
      c.enter .reporting
      let a ← current
      if a.typesetting then keepLogs
      display (.error (stop.message ++ "
"))
      return stop.outcome a.result) := by
    refine isSound_bind (isSound_enter _) fun _ => isSound_bind isSound_current fun a => ?_
    have hshown : IsSound programs right I (do
        display (.error (stop.message ++ "
"))
        return stop.outcome a.result) :=
      isSound_bind (isSound_record rfl) fun _ => isSound_pure _
    split
    · exact isSound_bind isSound_keepLogs fun _ => hshown
    · exact hshown
  cases stop with
  | crash e => exact isSound_bind (isSound_log _ _) fun _ => told
  | _ => exact told

/-- **Nothing goes wrong on the way**: what an attempt starts is right, and what its programs keep
is kept until it ends. -/
theorem sound_carryOut (past : List Event) : Leads c.carryOut past { tree := t } fun _ es a =>
    Sound programs right I past t es a.tree := by
  have hattempt {past : List Event} : Leads c.attempt past { tree := t } fun _ es a =>
      Sound programs right I past t es a.tree := by
    refine leads_bind ((sound_pipeline hc rfl).imp ?_)
    rintro (stop | o) es a hs
    · exact (isSound_fail stop _ _).imp fun _ _ _ hs' => hs.append hs'
    · exact leads_pure (hs.append (sound_still rfl))
  have hlogged (ms : List Message) : Leads (logAll ms) past { tree := t } fun _ es a =>
      Sound programs right I past t es a.tree ∧ a = { tree := t } :=
    ⟨isSound_logAll ms past _, (meets_logAll rfl : Meets _ _ fun _ _ a => a = _) past⟩
  refine leads_bind ((hlogged _).imp ?_)
  rintro - es _ ⟨hs, rfl⟩
  exact hattempt.imp fun _ _ _ hs' => hs.append hs'

end Stages

end Compilation

end Galley
