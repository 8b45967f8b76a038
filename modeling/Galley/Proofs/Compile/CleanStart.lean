import Galley.Proofs.Compile.Attempt
import Galley.Proofs.StaleLogs
import Galley.Proofs.Work.Leads

/-!
# Drivers start without logs

The line that tells of the driver is followed by messages and by the start of a program, and the
tree that this program finds has none of the logs of the document (`clean_run`). Nothing is
asked of the programs but that the driver starts one of them first of all: whatever they do before,
the logs are removed behind them.
-/

namespace Galley

open Work

variable {t : Tree} {target : Path}

/-! ### Drivers start a program first of all -/

/-- Whether nothing but messages stands in front of a start in the tree `t`. -/
def StartsAtOnce (t : Tree) (notes : List Note) : Prop :=
  ∃ (messages : List Message) (s : Start) (status : Option Int) (rest : List Note),
    notes = messages.map .logged ++ .started s t status :: rest

private theorem StartsAtOnce.append {notes : List Note} (h : StartsAtOnce t notes)
    (more : List Note) : StartsAtOnce t (notes ++ more) := by
  obtain ⟨messages, s, status, rest, rfl⟩ := h
  exact ⟨messages, s, status, rest ++ more, by simp⟩

private theorem StartsAtOnce.behind_message {notes : List Note} (h : StartsAtOnce t notes)
    (m : Message) : StartsAtOnce t (.logged m :: notes) := by
  obtain ⟨messages, s, status, rest, rfl⟩ := h
  exact ⟨m :: messages, s, status, rest, rfl⟩

namespace Toolchain

variable {past : List Note}

private theorem startsAtOnce_runProgram {programs : Programs} {s : Start} :
    Leads (runProgram programs s).run past t fun _ notes _ => StartsAtOnce t notes := by
  refine leads_lift_bind (leads_log (leads_lift_bind (leads_start ?_)))
  split
  · exact leads_stage_pure ⟨[_], s, _, [], rfl⟩
  · exact leads_throw ⟨[_], s, _, [], rfl⟩
  · exact leads_throw ⟨[_], s, _, [], rfl⟩

private theorem startsAtOnce_compile {e : Emulation} {tex : Path} {o : TexOptions} :
    Leads (e.compile tex o).run past t fun _ notes _ => StartsAtOnce t notes := by
  refine leads_lift_bind (leads_log (leads_stage_bind (startsAtOnce_runProgram.imp ?_)))
  rintro (stop | result) notes t' h
  · exact h.behind_message _
  · exact (h.append _).behind_message _

private theorem Choice.startsAtOnce_run {choice : Choice} {host : Host} {programs : Programs}
    {which : Tree → String → Option String} {tex : Path} {o : TexOptions} :
    Leads ((choice.driver host programs which).run tex o).run past t
      fun _ notes _ => StartsAtOnce t notes := by
  cases choice with
  | emulated maxPasses => exact startsAtOnce_compile
  | texi2dvi path =>
    exact leads_lift_bind (leads_log (startsAtOnce_runProgram.imp fun _ _ _ h =>
      h.behind_message _))

end Toolchain

namespace Compilation

/-- Whether the drivers of a compilation start a program first of all. -/
def Prompt (c : Compilation) : Prop :=
  ∀ {t d}, c.driver t = .ok d → ∀ tex o past t',
    Leads (d.run tex o).run past t' fun _ notes _ => StartsAtOnce t' notes

theorem prompt_onHost {host : Host} {programs : Programs}
    {viewer : Path → ExceptT Crash (Work Note Tree) Unit} {target : String}
    {completion : Completion} {settings : Settings} :
    (onHost host programs viewer target completion settings).Prompt := by
  intro t d hd tex o past t'
  cases hd
  exact leads_adapt Toolchain.Choice.startsAtOnce_run

variable {α β : Type} {c : Compilation} {past : List Event} {a : Attempt}

/-! ### Lists of events -/

/-- Whether wherever the line stands that tells of the driver, a program is started at once in a
tree without the logs. -/
def StartsClean (target : Path) (events : List Event) : Prop :=
  ∀ before behind, events = before ++ .shown startLine :: behind →
    ∃ (messages : List Message) (s : Start) (t : Tree) (status : Option Int) (rest : List Event),
      behind = messages.map (fun m => .note (.logged m)) ++ .note (.started s t status) :: rest ∧
        ∀ q, IsLog target q → ¬ t.IsFile q

private theorem startsClean_of_notMem {events : List Event} (h : .shown startLine ∉ events) :
    StartsClean target events := by
  rintro before behind rfl
  exact absurd (List.mem_append_right _ (List.mem_cons_self ..)) h

private theorem startsClean_notes (notes : List Note) : StartsClean target (notes.map .note) :=
  startsClean_of_notMem (by simp)

private theorem StartsClean.append {xs ys : List Event} (hx : StartsClean target xs)
    (hy : StartsClean target ys) : StartsClean target (xs ++ ys) := by
  intro before behind h
  obtain ⟨as, rfl, hys⟩ | ⟨bs, hxs, hbs⟩ := List.append_eq_append_iff.mp h
  · exact hy as behind hys
  · cases bs with
    | nil => exact hy [] behind hbs.symm
    | cons b bs =>
      obtain ⟨rfl, rfl⟩ := List.cons.inj hbs
      obtain ⟨messages, s, t, status, rest, rfl, hlogs⟩ := hx before bs hxs
      exact ⟨messages, s, t, status, rest ++ ys, by simp, hlogs⟩

private theorem startsClean_startLine {notes : List Note} (h : StartsAtOnce t notes)
    (hlogs : ∀ q, IsLog target q → ¬ t.IsFile q) {rest : List Event}
    (hrest : .shown startLine ∉ rest) :
    StartsClean target (.shown startLine :: (notes.map .note ++ rest)) := by
  intro before behind heq
  cases before with
  | nil =>
    obtain ⟨messages, s, status, more, rfl⟩ := h
    obtain rfl := List.tail_eq_of_cons_eq heq
    exact ⟨messages, s, t, status, more.map .note ++ rest, by simp, hlogs⟩
  | cons e before =>
    have hmem : .shown startLine ∈ notes.map Event.note ++ rest := by
      rw [List.tail_eq_of_cons_eq heq]
      exact List.mem_append_right _ (List.mem_cons_self ..)
    simp [hrest] at hmem

/-! ### Work that starts the driver clean -/

/-- Whether a stage starts the driver, if at all, without logs. -/
def Clean (target : Path) (w : Work Event Attempt α) : Prop :=
  ∀ past a, StartsClean target (w past a).events

private theorem clean_bind {w : Work Event Attempt α} {f : α → Work Event Attempt β}
    (hw : Clean target w) (hf : ∀ x, Clean target (f x)) : Clean target (w >>= f) :=
  throughout_bind StartsClean.append hw hf

private theorem clean_stage_bind {ε : Type} {w : ExceptT ε (Work Event Attempt) α}
    {f : α → ExceptT ε (Work Event Attempt) β} (hw : Clean target w.run)
    (hf : ∀ x, Clean target (f x).run) : Clean target (w >>= f).run :=
  throughout_stage_bind StartsClean.append hw hf

/-- A stage whose story does not tell of the driver. -/
private theorem clean_of_meets {w : Work Event Attempt α}
    (h : ∀ a, Meets w a fun _ es _ => .shown startLine ∉ es) : Clean target w :=
  fun past a => startsClean_of_notMem fun hmem => h a past ((mem_story _ _).mpr ⟨hmem, rfl⟩)

private theorem clean_lift_of_meets {ε : Type} {w : Work Event Attempt α}
    (h : ∀ a, Meets w a fun _ es _ => .shown startLine ∉ es) :
    Clean target (liftM w : ExceptT ε (Work Event Attempt) α).run :=
  clean_of_meets fun a => meets_lift (h a)

/-! ### What else is shown -/

private theorem startLine_ne_error (text : String) : startLine ≠ .error text :=
  fun h => Bool.false_ne_true (congrArg ProgressLine.isError h)

private theorem startLine_ne_plain {text : String} (h : text ≠ "\nRunning LaTeX compiler...") :
    startLine ≠ .plain text :=
  fun he => h (congrArg ProgressLine.text he).symm

private theorem Completing.notMem {pdf : Path} {es : List Event} (h : c.Completing pdf es) :
    .shown startLine ∉ es := by
  cases h <;> simp [startLine_ne_error]

private theorem notMem_entryLines (base : Path) (entries : List Entry) :
    startLine ∉ (Diagnostics.entryLines base entries).1 := by
  induction entries with
  | nil => simpa [Diagnostics.entryLines] using startLine_ne_plain (by decide)
  | cons e rest ih =>
    rw [Diagnostics.entryLines]
    split
    · exact List.not_mem_nil
    · exact List.not_mem_cons_of_ne_of_not_mem (startLine_ne_error _) ih

private theorem notMem_groupLines {title : String} (h : title ≠ "\nRunning LaTeX compiler...")
    (base : Path) (entries : List Entry) :
    startLine ∉ (Diagnostics.groupLines base title entries).1 := by
  rw [Diagnostics.groupLines]
  split
  · exact List.not_mem_nil
  · exact List.not_mem_cons_of_ne_of_not_mem (startLine_ne_plain h) (notMem_entryLines base entries)

private theorem notMem_report (d : Diagnostics) : startLine ∉ d.report.1 := by
  have htex : startLine ∉ (Diagnostics.groupLines d.base "\nLaTeX errors:\n" d.tex).1 :=
    notMem_groupLines (by decide) _ _
  have hbib : startLine ∉ (Diagnostics.groupLines d.base "BibTeX errors:\n" d.bibtex).1 :=
    notMem_groupLines (by decide) _ _
  rw [Diagnostics.report]
  revert htex hbib
  rcases Diagnostics.groupLines d.base "\nLaTeX errors:\n" d.tex with ⟨shown, _ | _⟩
  · exact fun htex _ => htex
  · exact fun htex hbib => by simp [htex, hbib]

private theorem Reporting.notMem {program : Path} {concordance : Concordance} {result : ToolOutput}
    {r : Except Stop Outcome} {es : List Event} (h : c.Reporting program concordance result r es) :
    .shown startLine ∉ es := by
  have failed (d : Diagnostics) : .shown startLine ∉ failureStory d := by
    simpa [failureStory, notMem_report] using startLine_ne_plain (by decide)
  cases h with
  | succeeded h hc => simpa [hc.notMem] using startLine_ne_plain (by decide)
  | uncollected => simpa using startLine_ne_plain (by decide)
  | found => exact failed _
  | process => exact failed _
  | unshowable => exact failed _

/-! ### Stages -/

private theorem clean_validate : Clean target c.validate.run := by
  refine clean_of_meets fun a => meets_validate.imp ?_
  rintro r es a' ⟨hv, -⟩
  cases hv <;> simp

private theorem clean_weaveLiterate (directives : Directives) :
    Clean target (c.weaveLiterate directives).run := by
  refine clean_of_meets fun a => meets_weaveLiterate.imp ?_
  rintro r es a' ⟨hw, -⟩
  cases hw <;> simp

private theorem clean_probeVersion (program : Path) : Clean target (c.probeVersion program).run :=
    by
  refine clean_of_meets fun a => meets_probeVersion.imp ?_
  rintro r es a' ⟨hp, -⟩
  revert hp
  generalize r.map (fun _ => ()) = r'
  intro hp
  cases hp <;> simp

theorem leads_chore {w : Chore α} {Q : α → List Event → Attempt → Prop}
    (h : Leads w (past.filterMap Event.note?) a.tree fun x notes t =>
      Q x (notes.map .note) { a with tree := t }) : Leads (chore w) past a Q :=
  h

theorem leads_record {e : Event} {Q : Unit → List Event → Attempt → Prop} (h : Q () [e] a) :
    Leads (record e) past a Q :=
  h

theorem leads_current {Q : Attempt → List Event → Attempt → Prop} (h : Q a [] a) :
    Leads current past a Q :=
  h

theorem leads_update {f : Attempt → Attempt} {Q : Unit → List Event → Attempt → Prop}
    (h : Q () [] (f a)) : Leads (update f) past a Q :=
  h

theorem leads_accept {role : Role} {r : Except Stop α}
    {Q : Except Stop α → List Event → Attempt → Prop}
    (h : Q r (match r with | .ok _ => [] | .error stop => [.raised role stop]) a) :
    Leads (Stage.accept role r).run past a Q := by
  cases r with
  | ok x => exact leads_stage_pure h
  | error stop => exact leads_lift_bind (leads_record (leads_throw h))

/-- In a tree without logs the driver is started without logs. -/
private theorem leads_drive (hd : c.Prompt) (hlogs : ∀ q, IsLog target q → ¬ a.tree.IsFile q)
    {tex : Path} {o : TexOptions} :
    Leads (c.drive tex o).run past a fun _ es _ => StartsClean target es := by
  refine leads_lift_bind (leads_current (leads_stage_bind (leads_accept ?_)))
  cases hdriver : c.driver a.tree with
  | error stop => exact startsClean_of_notMem (by simp)
  | ok driver =>
    refine leads_lift_bind (leads_chore (leads_log (leads_lift_bind (leads_record ?_))))
    refine leads_stage_bind (leads_lift_bind (leads_chore ((hd hdriver tex o _ _).imp ?_)))
    intro r notes t' hn
    have told (n : Note) (rest : List Event) (hrest : .shown startLine ∉ rest) :
        StartsClean target ([n].map .note ++ .shown startLine :: (notes.map .note ++ rest)) :=
      (startsClean_notes [n]).append (startsClean_startLine hn hlogs hrest)
    refine leads_accept ?_
    cases r with
    | error stop => exact told _ [.raised .driver stop] (by simp)
    | ok result =>
      refine leads_lift_bind (leads_record (leads_lift (leads_update ?_)))
      simpa [startLine] using told _ [.drove result] (by simp)

/-- The logs are removed right before the driver is called. -/
private theorem clean_drive (ht : target.Settled) (hd : c.Prompt) (tex : Path) (o : TexOptions) :
    Clean target (do
      Stage.chore (removeStaleLogs c.here (target.sibling ".tex"))
      c.drive tex o
      return tex : Stage Path).run := by
  intro past a
  change Leads _ past a fun _ es _ => StartsClean target es
  refine leads_lift_bind (leads_chore ?_)
  have hlogs {q : Place} (hq : IsLog target q) :=
    not_isFile_of_removed ht a.tree c.here (past.filterMap Event.note?) hq
  rw [Leads]
  generalize removeStaleLogs c.here (target.sibling ".tex") (past.filterMap Event.note?) a.tree =
    removed at hlogs ⊢
  refine leads_stage_bind ((leads_drive hd fun _ => hlogs).imp ?_)
  rintro (stop | _) es a' h
  · exact (startsClean_notes _).append h
  · exact leads_stage_pure (by simpa using (startsClean_notes _).append h)

private theorem clean_typeset (ht : c.target.Settled) (hd : c.Prompt) (program : Path) :
    Clean c.target (c.typeset program).run := by
  have entered : Clean c.target (liftM (c.enter .typesetting) : Stage Unit).run :=
    clean_lift_of_meets fun a => meets_enter (by simp)
  have reached : Clean c.target
      (liftM (update fun a => { a with typesetting := true }) : Stage Unit).run :=
    clean_lift_of_meets fun a => meets_update List.not_mem_nil
  refine clean_stage_bind entered fun _ => clean_stage_bind reached fun _ => ?_
  refine clean_stage_bind (clean_probeVersion program) fun version => ?_
  exact clean_drive ht hd _ _

private theorem clean_report (program tex : Path) (concordance : Concordance) :
    Clean target (c.report program tex concordance).run := by
  refine clean_of_meets fun a => meets_lift_bind (meets_enter (meets_lift_bind (meets_current ?_)))
  by_cases h : (a.result.getD {}).status = 0
  · simp only [if_pos h]
    refine meets_lift (meets_succeed.imp ?_)
    rintro o es a' ⟨-, ⟨es', rfl, hc⟩, -⟩
    simpa [hc.notMem] using startLine_ne_plain (by decide)
  · simp only [if_neg h]
    refine (meets_diagnose h).imp ?_
    rintro r es a' ⟨hr, -⟩
    simpa using hr.notMem

/-- **The driver starts without logs** in every run of a compilation, if it starts. -/
theorem clean_run (ht : c.target.Settled) (hd : c.Prompt) : Clean c.target c.run := by
  have logged (ms : List Message) : Clean c.target (logAll ms) :=
    clean_of_meets fun a => meets_logAll List.not_mem_nil
  have failed (stop : Stop) : Clean c.target (c.fail stop) := by
    refine clean_of_meets fun a => meets_fail.imp ?_
    rintro o es a' ⟨-, rfl, -⟩
    simp [stopStory, startLine_ne_error]
  have finished : Clean c.target c.finish := by
    refine clean_of_meets fun a => meets_finish.imp ?_
    rintro - es a' ⟨rfl, -⟩
    simp
  have pipeline : Clean c.target c.pipeline.run := by
    refine clean_stage_bind clean_validate fun valid => ?_
    refine clean_stage_bind (clean_weaveLiterate valid.1) fun concordance => ?_
    exact clean_stage_bind (clean_typeset ht hd valid.2) fun tex => clean_report _ _ _
  have attempted : Clean c.target c.attempt := by
    refine clean_bind pipeline fun r => ?_
    cases r with
    | ok o => exact clean_of_meets fun a => meets_pure List.not_mem_nil
    | error stop => exact failed stop
  refine clean_bind (clean_of_meets fun a => meets_current List.not_mem_nil) fun a => ?_
  split
  · exact clean_of_meets fun a => meets_pure List.not_mem_nil
  · refine clean_bind (clean_bind (logged _) fun _ => attempted) fun o => ?_
    refine clean_bind finished fun _ => clean_bind (logged _) fun _ => ?_
    exact clean_of_meets fun a => meets_pure List.not_mem_nil

end Compilation

end Galley
