import Galley.Proofs.Compile.Attempt
import Galley.Proofs.Diagnostics.Merged

/-!
# Classification of outcomes

A run always has an outcome, and what kind it is of is decided by the first thing that stops the
run: `outcome_of_run`. Only a few events can decide it, the **decisive** ones: the weaver fails,
a collaborator raises an error, the toolchain comes to its end, its diagnostics are collected. A
`Verdict` lists the outcomes together with the decisive events that lead to them; the
classification is read off the verdict.

Collaborators may raise any error that is not one of this library's own, and the driver and the
probe may raise theirs (`Compilation.Foreign`). The collaborators of a host do
(`foreign_onHost`).
-/

namespace Galley

/-- Whether an event can decide the outcome. A version that is not known cannot. -/
def Event.isDecisive : Event → Bool
  | .wove (.failed _) => true
  | .raised _ (.version _) => false
  | .raised _ _ => true
  | .drove _ => true
  | .diagnosed _ => true
  | .undiagnosed _ => true
  | _ => false

/-- The events that can decide the outcome. -/
def decisive (events : List Event) : List Event := events.filter Event.isDecisive

@[simp]
theorem decisive_nil : decisive [] = [] := rfl

@[simp]
theorem decisive_append (xs ys : List Event) : decisive (xs ++ ys) = decisive xs ++ decisive ys :=
  List.filter_append ..

private theorem decisive_cons (e : Event) (es : List Event) :
    decisive (e :: es) = if e.isDecisive = true then e :: decisive es else decisive es :=
  List.filter_cons

private theorem mem_decisive {e : Event} {events : List Event} (h : e.isDecisive = true) :
    e ∈ decisive events ↔ e ∈ events := by
  simp [decisive, h]

private theorem decisive_story (events : List Event) : decisive (story events) = decisive events :=
    by
  rw [decisive, decisive, story, List.filter_filter]
  refine List.filter_congr fun e _ => ?_
  cases e <;> simp [Event.isDecisive, Event.note?]

/-- What collecting the diagnostics came to, as an event tells it. -/
def Event.collected? : Event → Option (Except Crash Diagnostics)
  | .diagnosed d => some (.ok d)
  | .undiagnosed e => some (.error e)
  | _ => none

/-- What collecting diagnostics came to, whenever it was done. -/
def collections (events : List Event) : List (Except Crash Diagnostics) :=
  events.filterMap Event.collected?

private theorem collections_append (xs ys : List Event) :
    collections (xs ++ ys) = collections xs ++ collections ys :=
  List.filterMap_append

private theorem collections_cons (e : Event) (es : List Event) :
    collections (e :: es) = e.collected?.toList ++ collections es := by
  rw [collections, List.filterMap_cons]
  cases e.collected? <;> rfl

private theorem collections_story (events : List Event) : collections (story events) =
    collections events := by
  rw [collections, collections, story, List.filterMap_filter]
  refine List.filterMap_congr fun e _ => ?_
  cases e <;> simp [Event.collected?, Event.note?]

private theorem diagnosed_mem_iff {events : List Event} {d : Diagnostics} :
    .diagnosed d ∈ events ↔ .ok d ∈ collections events := by
  rw [collections, List.mem_filterMap]
  refine ⟨fun h => ⟨_, h, rfl⟩, ?_⟩
  rintro ⟨e, he, hd⟩
  cases e with
  | diagnosed d' =>
    cases hd
    exact he
  | _ => cases hd

private theorem mem_collections_of_undiagnosed {events : List Event} {e : Crash}
    (h : .undiagnosed e ∈ events) : .error e ∈ collections events :=
  List.mem_filterMap.mpr ⟨_, h, rfl⟩

namespace Compilation

/-- What a compilation relies on: its collaborators raise errors of others only, and beside them
the probe may not know the version and the driver may not be able to launch a program. -/
structure Foreign (c : Compilation) : Prop where
  which {t : Tree} {name : String} {stop : Stop} (h : c.which t name = .error stop) :
    ∃ e, stop = .crash e
  choice {t : Tree} {stop : Stop} (h : c.driver t = .error stop) : ∃ e, stop = .crash e
  weaver {target : Path} {directives : Directives} {past : List Note} {t : Tree} {stop : Stop}
    (h : ((c.weaver target directives).run past t).result = .error stop) : ∃ e, stop = .crash e
  probe {program : Path} {past : List Note} {t : Tree} {stop : Stop}
    (h : ((c.probe program).run past t).result = .error stop) :
    (∃ e, stop = .crash e) ∨ ∃ message, stop = .version message
  driver {t : Tree} {driver : Driver Stop} (h : c.driver t = .ok driver) {tex : Path}
    {options : TexOptions} {past : List Note} {t' : Tree} {stop : Stop}
    (h : ((driver.run tex options).run past t').result = .error stop) :
    (∃ e, stop = .crash e) ∨ ∃ e, stop = .launch e

variable (c : Compilation)

/-- The TeX program that the document asks for, in lower case. -/
def requestedProgram (t : Tree) : String :=
  Text.lower (TexProgram.requested (c.directivesIn t) c.settings)

/-- Whether the TeX program that the document asks for is not supported or not located. -/
def Unresolved (t : Tree) : Prop :=
  c.requestedProgram t ∉ TexProgram.supported ∨ c.which t (c.requestedProgram t) = .ok none

/-- The outcomes with the decisive events that lead to them. -/
inductive Verdict (t : Tree) : Outcome → List Event → Prop
  | rejected (h : ¬ c.Accepts t) (message : String) :
      Verdict t (Stop.outcome (.invalidInput message) none) []
  | unresolved (h : c.Accepts t) (hu : c.Unresolved t) (message : String) :
      Verdict t (Stop.outcome (.toolResolution message) none) []
  | crashed (h : c.Accepts t) (hu : ¬ c.Unresolved t) (role : Role) (e : Crash) :
      Verdict t (Stop.outcome (.crash e) none) [.raised role (.crash e)]
  | unwoven (h : c.Accepts t) (hu : ¬ c.Unresolved t) (hl : c.isLiterate = true)
      (reason : String) :
      Verdict t (Stop.outcome (.weave reason) none) [.wove (.failed reason)]
  | unlaunched (h : c.Accepts t) (hu : ¬ c.Unresolved t) (e : LaunchError) :
      Verdict t (Stop.outcome (.launch e) none) [.raised .driver (.launch e)]
  | succeeded (h : c.Accepts t) (hu : ¬ c.Unresolved t) {result : ToolOutput}
      (hs : result.status = 0) : Verdict t (c.successOutcome result) [.drove result]
  | uncollected (h : c.Accepts t) (hu : ¬ c.Unresolved t) {result : ToolOutput}
      (hs : result.status ≠ 0) (e : Crash) :
      Verdict t (Stop.outcome (.crash e) (some result)) [.drove result, .undiagnosed e]
  | found (h : c.Accepts t) (hu : ¬ c.Unresolved t) {result : ToolOutput}
      (hs : result.status ≠ 0) {d : Diagnostics} {lines : List String} (hd : d.Showable)
      (hl : d.lines = .ok lines) (hf : d.found = true) :
      Verdict t (c.diagnosticsOutcome result lines) [.drove result, .diagnosed d]
  | process (h : c.Accepts t) (hu : ¬ c.Unresolved t) {result : ToolOutput}
      (hs : result.status ≠ 0) {d : Diagnostics} (hd : d.Showable) (hf : d.found = false)
      (program : Path) :
      Verdict t (Stop.outcome (.process program result.status) (some result))
        [.drove result, .diagnosed d]
  | unshowable (h : c.Accepts t) (hu : ¬ c.Unresolved t) {result : ToolOutput}
      (hs : result.status ≠ 0) {d : Diagnostics} (hd : ¬ d.Showable) (e : Crash) :
      Verdict t (Stop.outcome (.crash e) (some result)) [.drove result, .diagnosed d]

variable {c} {t : Tree}

/-! ### Decisive events of the stages -/

private theorem programIn_eq_ok_iff {name : String} : c.programIn t = .ok name ↔
    c.requestedProgram t ∈ TexProgram.supported ∧ name = c.requestedProgram t := by
  rw [programIn, TexProgram.supportedName, ← requestedProgram]
  split
  · next h => simp [h, eq_comm]
  · next h => simp [h]

private theorem Validating.decisive_eq {x : Directives × Path} {es : List Event}
    (h : c.Validating t (.ok x) es) : decisive es = [] := by
  cases h
  rfl

private theorem Weaving.decisive_eq {concordance : Concordance} {es : List Event}
    (h : c.Weaving (.ok concordance) es) : decisive es = [] := by
  cases h <;> rfl

private theorem Probing.decisive_eq {es : List Event} (h : c.Probing (.ok ()) es) :
    decisive es = [] := by
  cases h <;> rfl

private theorem Driving.decisive_eq {result : ToolOutput} {es : List Event}
    (h : c.Driving (.ok result) es) : decisive es = [.drove result] := by
  cases h
  rfl

private theorem Completing.decisive_eq {pdf : Path} {es : List Event} (h : c.Completing pdf es) :
    decisive es = [] := by
  cases h <;> rfl

private theorem decisive_failureStory (d : Diagnostics) : decisive (failureStory d) =
    [.diagnosed d] := by
  have hshown : decisive (d.report.1.map .shown) = [] := by
    simp [decisive, Event.isDecisive]
  simp [failureStory, decisive_cons, Event.isDecisive, hshown]

private theorem decisive_stopStory (stop : Stop) : decisive (stopStory stop) = [] := rfl

/-- Before the driver nothing decisive happens. -/
private theorem decisive_typeset {x : Directives × Path} {concordance : Concordance}
    {es es' es'' : List Event} (hv : c.Validating t (.ok x) es)
    (hw : c.Weaving (.ok concordance) es') (hp : c.Probing (.ok ()) es'') (ds : List Event) :
    decisive (es ++ (es' ++ .entered .typesetting :: (es'' ++ ds))) = decisive ds := by
  rw [decisive_append, decisive_append, hv.decisive_eq, hw.decisive_eq, decisive_cons,
    if_neg (by simp [Event.isDecisive]), decisive_append, hp.decisive_eq]
  rfl

private theorem unresolved_of_programIn {problem : TexProgram.Problem}
    (h : c.programIn t = .error problem) : c.Unresolved t := by
  rw [programIn, TexProgram.supportedName, ← requestedProgram] at h
  split at h
  · cases h
  · next hs => exact .inl hs

theorem not_unresolved {name : String} {r : Except Stop (Option String)}
    (hp : c.programIn t = .ok name) (hw : c.which t name = r) (hr : r ≠ .ok none) :
    ¬ c.Unresolved t := by
  obtain ⟨hs, rfl⟩ := programIn_eq_ok_iff.mp hp
  rintro (hn | hn)
  · exact hn hs
  · exact hr (hw.symm.trans hn)

private theorem Validating.resolved {x : Directives × Path} {es : List Event}
    (h : c.Validating t (.ok x) es) : c.Accepts t ∧ ¬ c.Unresolved t := by
  cases h with
  | chosen h hp hw => exact ⟨h, not_unresolved hp hw (by simp)⟩

/-- The stops of a compilation with foreign collaborators, by their decisive events. -/
private theorem Course.verdict_of_stop (hc : c.Foreign) {stop : Stop} {es : List Event}
    {typesetting : Bool} {result? : Option ToolOutput}
    (h : c.Course t (.error stop) es typesetting result?) :
    c.Verdict t (stop.outcome result?) (decisive es) := by
  cases h with
  | validating hv =>
    cases hv with
    | rejected h message => exact .rejected h message
    | unsupported h hp => exact .unresolved h (unresolved_of_programIn hp) _
    | raised h hp hw =>
      obtain ⟨e, rfl⟩ := hc.which hw
      exact .crashed h (not_unresolved hp hw (by simp)) .lookup e
    | missing h hp hw =>
      obtain ⟨hs, rfl⟩ := programIn_eq_ok_iff.mp hp
      exact .unresolved h (.inr hw) _
  | weaving hv hw =>
    obtain ⟨ha, hu⟩ := hv.resolved
    rw [decisive_append, hv.decisive_eq, List.nil_append]
    cases hw with
    | raised hl hs =>
      obtain ⟨directives, past, t', hs⟩ := hs
      obtain ⟨e, rfl⟩ := hc.weaver hs
      exact .crashed ha hu .weaver e
    | failed hl reason => exact .unwoven ha hu hl reason
  | probing hv hw hp =>
    obtain ⟨ha, hu⟩ := hv.resolved
    rw [decisive_append, decisive_append, hv.decisive_eq, hw.decisive_eq]
    cases hp with
    | raised hn hs =>
      obtain ⟨program, past, t', hs⟩ := hs
      obtain ⟨e, rfl⟩ | ⟨message, rfl⟩ := hc.probe hs
      · exact .crashed ha hu .probe e
      · exact absurd rfl (hn message)
  | driving hv hw hp hd =>
    obtain ⟨ha, hu⟩ := hv.resolved
    rw [decisive_typeset hv hw hp]
    cases hd with
    | unchosen hs =>
      obtain ⟨t', hs⟩ := hs
      obtain ⟨e, rfl⟩ := hc.choice hs
      exact .crashed ha hu .lookup e
    | raised hs =>
      obtain ⟨t', driver, hd, tex, options, past, t'', hs⟩ := hs
      obtain ⟨e, rfl⟩ | ⟨e, rfl⟩ := hc.driver hd hs
      · exact .crashed ha hu .driver e
      · exact .unlaunched ha hu e
  | reporting hv hw hp hd hr =>
    obtain ⟨ha, hu⟩ := hv.resolved
    rw [decisive_typeset hv hw hp, decisive_append, hd.decisive_eq]
    cases hr with
    | uncollected hs hc => exact .uncollected ha hu hs _
    | process hs _ hr hf =>
      rw [decisive_failureStory]
      exact .process ha hu hs (Diagnostics.report_eq_ok_iff.mp hr) hf _
    | unshowable hs _ e hr =>
      rw [decisive_failureStory]
      -- if all could be shown, neither the report nor the lines would fail
      refine .unshowable ha hu hs (fun hd => ?_) e
      rcases hr with hr | hr
      · rw [Diagnostics.report_eq_ok_iff.mpr hd] at hr
        cases hr
      · obtain ⟨lines, hl⟩ := Diagnostics.exists_lines_eq_ok_iff.mpr hd
        rw [hl] at hr
        cases hr

private theorem Course.verdict_of_outcome {o : Outcome} {es : List Event} {typesetting : Bool}
    {result? : Option ToolOutput} (h : c.Course t (.ok o) es typesetting result?) :
    c.Verdict t o (decisive es) := by
  cases h with
  | reporting hv hw hp hd hr =>
    obtain ⟨ha, hu⟩ := hv.resolved
    rw [decisive_typeset hv hw hp, decisive_append, hd.decisive_eq]
    cases hr with
    | succeeded hs hc =>
      rw [decisive_cons, if_neg (by simp [Event.isDecisive]), decisive_cons,
        if_neg (by simp [Event.isDecisive]), hc.decisive_eq]
      exact .succeeded ha hu hs
    | found hs _ hr hl hf =>
      rw [decisive_failureStory]
      exact .found ha hu hs (Diagnostics.report_eq_ok_iff.mp hr) hl hf

/-- How an attempt ends, by its decisive events. -/
theorem Ending.verdict (hc : c.Foreign) {o : Outcome} {es : List Event} {typesetting : Bool}
    {result? : Option ToolOutput} (h : c.Ending t o es typesetting result?) :
    c.Verdict t o (decisive es) := by
  cases h with
  | reported h => exact h.verdict_of_outcome
  | stopped h =>
    rw [decisive_append, decisive_stopStory, List.append_nil]
    exact h.verdict_of_stop hc

/-! ### The classification -/

/-- What an outcome is, given the events `h` of the run. -/
structure Classified (c : Compilation) (t : Tree) (h : List Event) (o : Outcome) : Prop where
  invalidInput : o.kind = .invalidInput ↔
    c.hasBlankName = true ∨ t.contains c.here c.target = false
  toolResolutionError : o.kind = .toolResolutionError ↔ c.Accepts t ∧ c.Unresolved t
  weaveError : o.kind = .weaveError ↔ c.isLiterate = true ∧ ∃ reason, .wove (.failed reason) ∈ h
  launchError : o.kind = .launchError ↔ ∃ e, .raised .driver (.launch e) ∈ h
  success : o.kind = .success ↔ ∃ result, .drove result ∈ h ∧ result.status = 0
  diagnosticsAvailable : o.kind = .diagnosticsAvailable ↔
    ∃ result d, .drove result ∈ h ∧ result.status ≠ 0 ∧ .diagnosed d ∈ h ∧ d.found = true ∧
      d.Showable
  processError : o.kind = .processError ↔
    ∃ result d, .drove result ∈ h ∧ result.status ≠ 0 ∧ .diagnosed d ∈ h ∧ d.found = false
  unexpectedError : o.kind = .unexpectedError ↔
    (∃ role e, .raised role (.crash e) ∈ h) ∨ (∃ e, .undiagnosed e ∈ h) ∨
      ∃ d, .diagnosed d ∈ h ∧ ¬ d.Showable
  weaveMessage {reason : String} (hr : .wove (.failed reason) ∈ h) : o.message = reason
  launchMessage {e : LaunchError} (he : .raised .driver (.launch e) ∈ h) :
    o.message = "Unable to compile pdf: " ++ e.message
  crashMessage {role : Role} {e : Crash} (he : .raised role (.crash e) ∈ h) :
    o.message = "Unexpected error: " ++ e.message
  undiagnosedMessage {e : Crash} (he : .undiagnosed e ∈ h) :
    o.message = "Unexpected error: " ++ e.message
  pdf : o.pdf = if o.kind = .success then some (pdfPath c.target) else none
  lines : if o.kind = .diagnosticsAvailable then
    ∃ d, .diagnosed d ∈ h ∧ d.lines = .ok o.diagnostics else o.diagnostics = []
  status {result : ToolOutput} (hr : .drove result ∈ h) :
    o.status = some result.status ∧ o.output = result.output ∧ o.errors = result.errors
  noStatus (hr : ∀ result, .drove result ∉ h) : o.status = none ∧ o.output = "" ∧ o.errors = ""

private theorem not_accepts_iff : ¬ c.Accepts t ↔
    c.hasBlankName = true ∨ t.contains c.here c.target = false := by
  rw [Accepts]
  cases c.hasBlankName <;> cases t.contains c.here c.target <;> simp

private theorem found_of_not_showable {d : Diagnostics} (h : ¬ d.Showable) : d.found = true := by
  cases hf : d.found with
  | true => rfl
  | false =>
    refine absurd ?_ h
    simp_all [Diagnostics.Showable, Diagnostics.found]

private theorem Verdict.classified {o : Outcome} {ds : List Event} (h : c.Verdict t o ds) :
    c.Classified t ds o := by
  have hr := (not_accepts_iff (c := c) (t := t)).symm
  cases h with
  | rejected h message =>
    constructor <;> simp [Stop.outcome, Stop.kind, hr, h]
  | unresolved h hu message =>
    constructor <;> simp [Stop.outcome, Stop.kind, hr, h, hu]
  | crashed h hu role e =>
    constructor <;> simp [Stop.outcome, Stop.kind, hr, h, hu]
  | unwoven h hu hl reason =>
    constructor <;> simp [Stop.outcome, Stop.kind, hr, h, hu, hl]
  | unlaunched h hu e =>
    constructor <;> simp [Stop.outcome, Stop.kind, hr, h, hu]
  | succeeded h hu hs =>
    constructor <;> simp [successOutcome, hr, h, hu, hs]
  | uncollected h hu hs e =>
    constructor <;> simp [Stop.outcome, Stop.kind, hr, h, hu, hs]
  | found h hu hs hd hl hf =>
    constructor <;> simp [diagnosticsOutcome, hr, h, hu, hs, hd, hl, hf]
  | process h hu hs hd hf program =>
    constructor <;> simp [Stop.outcome, Stop.kind, hr, h, hu, hs, hd, hf]
  | unshowable h hu hs hd e =>
    constructor <;>
      simp [Stop.outcome, Stop.kind, hr, h, hu, hs, hd, found_of_not_showable hd]

/-- Events that decide nothing do not matter to the classification. -/
private theorem Classified.of_decisive {h : List Event} {o : Outcome}
    (hd : c.Classified t (decisive h) o) : c.Classified t h o := by
  -- the classification speaks of decisive events alone
  have wove : ∀ reason, .wove (.failed reason) ∈ decisive h ↔ .wove (.failed reason) ∈ h :=
    fun _ => mem_decisive rfl
  have launch : ∀ e, .raised .driver (.launch e) ∈ decisive h ↔ .raised .driver (.launch e) ∈ h :=
    fun _ => mem_decisive rfl
  have crash : ∀ role e, .raised role (.crash e) ∈ decisive h ↔ .raised role (.crash e) ∈ h :=
    fun _ _ => mem_decisive rfl
  have drove : ∀ result, .drove result ∈ decisive h ↔ .drove result ∈ h :=
    fun _ => mem_decisive rfl
  have diagnosed : ∀ d, .diagnosed d ∈ decisive h ↔ .diagnosed d ∈ h := fun _ => mem_decisive rfl
  have undiagnosed : ∀ e, .undiagnosed e ∈ decisive h ↔ .undiagnosed e ∈ h :=
    fun _ => mem_decisive rfl
  exact {
    invalidInput := hd.invalidInput
    toolResolutionError := hd.toolResolutionError
    weaveError := by simpa only [wove] using hd.weaveError
    launchError := by simpa only [launch] using hd.launchError
    success := by simpa only [drove] using hd.success
    diagnosticsAvailable := by simpa only [drove, diagnosed] using hd.diagnosticsAvailable
    processError := by simpa only [drove, diagnosed] using hd.processError
    unexpectedError := by simpa only [crash, undiagnosed, diagnosed] using hd.unexpectedError
    weaveMessage := fun hr => hd.weaveMessage ((wove _).mpr hr)
    launchMessage := fun he => hd.launchMessage ((launch _).mpr he)
    crashMessage := fun he => hd.crashMessage ((crash _ _).mpr he)
    undiagnosedMessage := fun he => hd.undiagnosedMessage ((undiagnosed _).mpr he)
    pdf := hd.pdf
    lines := by simpa only [diagnosed] using hd.lines
    status := fun hr => hd.status ((drove _).mpr hr)
    noStatus := fun hr => hd.noStatus fun result hm => hr result ((drove _).mp hm) }

/-! ### Where diagnostics come from -/

private theorem Validating.collections_eq {r : Except Stop (Directives × Path)} {es : List Event}
    (h : c.Validating t r es) : collections es = [] := by
  cases h <;> rfl

private theorem Weaving.collections_eq {r : Except Stop Concordance} {es : List Event}
    (h : c.Weaving r es) : collections es = [] := by
  cases h <;> rfl

private theorem Probing.collections_eq {r : Except Stop Unit} {es : List Event}
    (h : c.Probing r es) : collections es = [] := by
  cases h <;> rfl

private theorem Driving.collections_eq {r : Except Stop ToolOutput} {es : List Event}
    (h : c.Driving r es) : collections es = [] := by
  cases h <;> rfl

private theorem Completing.collections_eq {pdf : Path} {es : List Event} (h : c.Completing pdf es) :
    collections es = [] := by
  cases h <;> rfl

private theorem collections_failureStory (d : Diagnostics) : collections (failureStory d) =
    [.ok d] := by
  have hshown : collections (d.report.1.map .shown) = [] := by
    simp [collections, Event.collected?]
  rw [failureStory, collections_cons, collections_cons, collections_cons, hshown]
  rfl

private theorem Reporting.collects {program : Path} {concordance : Concordance}
    {result : ToolOutput}
    {r : Except Stop Outcome} {es : List Event} (h : c.Reporting program concordance result r es)
    {r' : Except Crash Diagnostics} (hr : r' ∈ collections es) : c.Collects concordance r' := by
  cases h with
  | succeeded h hc =>
    rw [collections_cons, collections_cons, hc.collections_eq] at hr
    cases hr
  | uncollected h hcollects => exact List.mem_singleton.mp hr ▸ hcollects
  | found h hcollects | process h hcollects | unshowable h hcollects =>
    rw [collections_failureStory] at hr
    exact List.mem_singleton.mp hr ▸ hcollects

private theorem Weaving.empty_or_wove {concordance : Concordance} {es : List Event}
    (h : c.Weaving (.ok concordance) es) :
    concordance = .empty ∨ ∃ tex, .wove (.woven tex concordance) ∈ es := by
  cases h with
  | plain h => exact .inl rfl
  | woven h tex concordance => exact .inr ⟨tex, by simp⟩

/-- Diagnostics are collected with the concordance that the weaver gave, if it gave one. -/
private theorem Course.collects {r : Except Stop Outcome} {es : List Event} {typesetting : Bool}
    {result? : Option ToolOutput} (h : c.Course t r es typesetting result?)
    {r' : Except Crash Diagnostics} (hr : r' ∈ collections es) :
    ∃ concordance, c.Collects concordance r' ∧
      (concordance = .empty ∨ ∃ tex, .wove (.woven tex concordance) ∈ es) := by
  cases h with
  | validating hv =>
    rw [hv.collections_eq] at hr
    cases hr
  | weaving hv hw =>
    rw [collections_append, hv.collections_eq, hw.collections_eq] at hr
    cases hr
  | probing hv hw hp =>
    rw [collections_append, collections_append, collections_cons, hv.collections_eq,
      hw.collections_eq, hp.collections_eq] at hr
    cases hr
  | driving hv hw hp hd =>
    rw [collections_append, collections_append, collections_cons, collections_append,
      hv.collections_eq, hw.collections_eq, hp.collections_eq, hd.collections_eq] at hr
    cases hr
  | reporting hv hw hp hd hrep =>
    rw [collections_append, collections_append, collections_cons, collections_append,
      collections_append, hv.collections_eq, hw.collections_eq, hp.collections_eq,
      hd.collections_eq] at hr
    refine ⟨_, hrep.collects hr, hw.empty_or_wove.imp_right ?_⟩
    rintro ⟨tex, h⟩
    exact ⟨tex, by simp [h]⟩

private theorem Ending.collects {o : Outcome} {es : List Event} {typesetting : Bool}
    {result? : Option ToolOutput} (h : c.Ending t o es typesetting result?)
    {r' : Except Crash Diagnostics} (hr : r' ∈ collections es) :
    ∃ concordance, c.Collects concordance r' ∧
      (concordance = .empty ∨ ∃ tex, .wove (.woven tex concordance) ∈ es) := by
  cases h with
  | reported h => exact h.collects hr
  | @stopped stop =>
    rename_i h
    rw [collections_append, show collections (stopStory stop) = [] from rfl, List.append_nil] at hr
    obtain ⟨concordance, hc, hw⟩ := h.collects hr
    exact ⟨concordance, hc, hw.imp_right fun ⟨tex, hw⟩ => ⟨tex, List.mem_append_left _ hw⟩⟩

/-- The diagnostics of a run are collected with the concordance that the weaver gave, if any. -/
theorem collects_of_run {past : List Event} {r : Except Crash Diagnostics}
    (hr : r ∈ collections (c.run past { tree := t }).events) :
    ∃ concordance, c.Collects concordance r ∧ (concordance = .empty ∨
      ∃ tex, .wove (.woven tex concordance) ∈ (c.run past { tree := t }).events) := by
  obtain ⟨-, hs, -⟩ := run_eq_some (c := c) (a := { tree := t }) rfl past
  obtain ⟨he, -⟩ := meets_carryOut (c := c) (t := t) past
  rw [← collections_story, hs, collections_append,
    show collections [.entered .finished] = [] from rfl, List.append_nil] at hr
  obtain ⟨concordance, hc, hw⟩ := he.collects hr
  refine ⟨concordance, hc, hw.imp_right ?_⟩
  rintro ⟨tex, hw⟩
  exact ⟨tex, (mem_events_run rfl (by simp) past).mpr hw⟩

/-- Whether every concordance that the weaver gave in the run knows the source that it is for. -/
def SourcesKnown (h : List Event) : Prop :=
  ∀ tex concordance, .wove (.woven tex concordance) ∈ h →
    concordance.isEmpty = true ∨ concordance.inputFile.isSome = true

/-- Whether no line of the diagnostics has more digits than are written. -/
def LinesShort (d : Diagnostics) : Prop :=
  ∀ e ∈ d.tex ++ d.bibtex, e.line.natAbs < Nat.pow 10 Text.digitLimit

private theorem Collects.showable {concordance : Concordance} {d : Diagnostics}
    (h : c.Collects concordance (.ok d))
    (hc : concordance.isEmpty = true ∨ concordance.inputFile.isSome = true)
    (hl : LinesShort d) : d.Showable := by
  obtain ⟨tex, past, t, hr⟩ := h
  exact fun e he => ⟨Diagnostics.file_isSome_of_collect hc hr e he, hl e he⟩

/-- Collecting fails only for a NUL in a name that is compared, so not with an empty concordance. -/
private theorem Collects.eq_embeddedNul {concordance : Concordance} {e : Crash}
    (h : c.Collects concordance (.error e)) : e = .embeddedNul ∧ concordance.isEmpty = false := by
  obtain ⟨document, past, t, hr⟩ := h
  obtain ⟨he, e', -, hn⟩ := Diagnostics.not_compared_of_collect hr
  rw [← Bool.not_eq_true]
  exact ⟨he, fun hempty => hn fun _ _ => .inl hempty⟩

/-- Diagnostics with short lines can be shown if the weaver names the sources. -/
theorem showable_of_run {past : List Event} (hk : SourcesKnown (c.run past { tree := t }).events)
    {d : Diagnostics} (hd : .diagnosed d ∈ (c.run past { tree := t }).events)
    (hl : LinesShort d) : d.Showable := by
  obtain ⟨concordance, hcol, rfl | ⟨tex, hw⟩⟩ := collects_of_run (diagnosed_mem_iff.mp hd)
  · exact hcol.showable (.inl rfl) hl
  · exact hcol.showable (hk tex concordance hw) hl

/-- No diagnostics are lost to an error but for a NUL in a name, and but for a concordance that the
weaver gave. -/
theorem eq_embeddedNul_of_run {past : List Event} {e : Crash}
    (he : .undiagnosed e ∈ (c.run past { tree := t }).events) :
    e = .embeddedNul ∧ ∃ tex concordance, concordance.isEmpty = false ∧
      .wove (.woven tex concordance) ∈ (c.run past { tree := t }).events := by
  obtain ⟨concordance, hcol, rfl | ⟨tex, hw⟩⟩ := collects_of_run (mem_collections_of_undiagnosed he)
  · cases hcol.eq_embeddedNul.2
  · exact ⟨hcol.eq_embeddedNul.1, tex, concordance, hcol.eq_embeddedNul.2, hw⟩

/-- **The classification of outcomes**: a run has an outcome, whatever its foreign collaborators
do, and what stops the run first decides the kind of the outcome. Diagnostics can always be shown
if their lines are short and the concordances of the weaver know their sources, and they can always
be collected unless the weaver gave a concordance and a name has a NUL. -/
theorem outcome_of_run (hc : c.Foreign) (past : List Event) (t : Tree) :
    ∃ o, (c.run past { tree := t }).result = some o ∧
      c.Classified t (c.run past { tree := t }).events o ∧
      (SourcesKnown (c.run past { tree := t }).events →
        ∀ d, .diagnosed d ∈ (c.run past { tree := t }).events → LinesShort d → d.Showable) ∧
      ∀ e, .undiagnosed e ∈ (c.run past { tree := t }).events → e = .embeddedNul ∧
        ∃ tex concordance, concordance.isEmpty = false ∧
          .wove (.woven tex concordance) ∈ (c.run past { tree := t }).events := by
  obtain ⟨hr, hs, -⟩ := run_eq_some (c := c) (a := { tree := t }) rfl past
  obtain ⟨he, -⟩ := meets_carryOut (c := c) (t := t) past
  refine ⟨_, hr, .of_decisive ?_, fun hk d => showable_of_run hk, fun e => eq_embeddedNul_of_run⟩
  rw [← decisive_story, hs, decisive_append, show decisive [.entered .finished] = [] from rfl,
    List.append_nil]
  exact (he.verdict hc).classified

/-! ### The collaborators of a host -/

private theorem exists_of_adapt {ε α : Type} {f : ε → Stop} {w : ExceptT ε (Work Note Tree) α}
    {past : List Note} {stop : Stop}
    (h : ((ExceptT.adapt f w).run past t).result = .error stop) : ∃ e, stop = f e := by
  have hrun : ((ExceptT.adapt f w).run past t).result = (w.run past t).result.mapError f := by
    rw [show (ExceptT.adapt f w).run = Except.mapError f <$> w.run from rfl, Work.map_apply]
  rw [hrun] at h
  cases hr : (w.run past t).result with
  | error e =>
    rw [hr] at h
    cases h
    exact ⟨e, rfl⟩
  | ok x =>
    rw [hr] at h
    cases h

/-- The collaborators of a host are foreign. -/
theorem foreign_onHost (host : Host) (programs : Programs)
    (viewer : Path → ExceptT Crash (Work Note Tree) Unit) (target : String)
    (completion : Completion) (settings : Settings) :
    (onHost host programs viewer target completion settings).Foreign where
  which h := by cases h
  choice h := by cases h
  weaver h := exists_of_adapt h
  probe h := by
    obtain ⟨e | e, rfl⟩ := exists_of_adapt h
    · exact .inr ⟨_, rfl⟩
    · exact .inl ⟨_, rfl⟩
  driver := by
    intro t driver h tex options past t' stop hs
    cases h
    obtain ⟨e | e, rfl⟩ := exists_of_adapt hs
    · exact .inr ⟨_, rfl⟩
    · exact .inl ⟨_, rfl⟩

/-! ### Runs over the thesis -/

/-- Whether the driver returned with a status other than zero. -/
private def droveAndFailed : Event → Bool
  | .drove result => result.status != 0
  | _ => false

private theorem exists_of_any_droveAndFailed {events : List Event}
    (h : events.any droveAndFailed = true) :
    ∃ result, .drove result ∈ events ∧ result.status ≠ 0 := by
  obtain ⟨e, he, hf⟩ := List.any_eq_true.mp h
  cases e with
  | drove result => exact ⟨result, he, by simpa [droveAndFailed] using hf⟩
  | _ => cases hf

/-- The two errors in the log of the thesis. -/
def thesisErrors : Diagnostics where
  base := Path.ofString "/"
  tex := [⟨.error, some (Path.ofString "/a.tex"), 3, "m"⟩,
    ⟨.error, some (Path.ofString "/r.tex"), 1, "m"⟩]
  bibtex := []

/-- The TeX program fails over the thesis, and the errors of its log are the outcome. -/
theorem outcome_of_run_ofThesis :
    (ofThesis 1).Foreign ∧ ∃ o, ((ofThesis 1).run [] { tree := thesis }).result = some o ∧
      (ofThesis 1).Classified thesis ((ofThesis 1).run [] { tree := thesis }).events o ∧
      o.kind = .diagnosticsAvailable ∧
      o.diagnostics = ["a.tex (line 3): m", "r.tex (line 1): m"] := by
  have hf : (ofThesis 1).Foreign := foreign_onHost ..
  have hfailed : ((ofThesis 1).run [] { tree := thesis }).events.any droveAndFailed = true := by
    decide +kernel
  have hcollected : collections ((ofThesis 1).run [] { tree := thesis }).events =
      [.ok thesisErrors] := by
    decide +kernel
  have hshow : thesisErrors.Showable := by
    simp only [Diagnostics.Showable, Entry.Showable]
    decide +kernel
  have hlines : thesisErrors.lines = .ok ["a.tex (line 3): m", "r.tex (line 1): m"] := by
    decide +kernel
  obtain ⟨o, ho, hc, -, -⟩ := outcome_of_run hf [] thesis
  obtain ⟨result, hr, hs⟩ := exists_of_any_droveAndFailed hfailed
  have hd : ∀ d, .diagnosed d ∈ ((ofThesis 1).run [] { tree := thesis }).events ↔
      d = thesisErrors := by
    intro d
    rw [diagnosed_mem_iff, hcollected, List.mem_singleton, Except.ok.injEq]
  have hkind : o.kind = .diagnosticsAvailable :=
    hc.diagnosticsAvailable.mpr ⟨result, _, hr, hs, (hd _).mpr rfl, rfl, hshow⟩
  obtain ⟨d, hm, hl⟩ := if_pos hkind ▸ hc.lines
  rw [(hd d).mp hm, hlines, Except.ok.injEq] at hl
  exact ⟨hf, o, ho, hc, hkind, hl.symm⟩

/-- The thesis after a weaver that gives a concordance without the source. -/
def ofUnnamed : Compilation :=
  { ofThesis 1 with
    target := Path.ofString "/r.Rnw"
    weaver := fun _ _ => pure (.woven (Path.ofString "/r.tex") Diagnostics.unnamedSource) }

/-- The two errors in the log of the thesis, as they are collected with such a concordance. -/
def unnamedErrors : Diagnostics where
  base := Path.ofString "/"
  tex := [⟨.error, some (Path.ofString "/a.tex"), 3, "m"⟩, ⟨.error, none, 7, "m"⟩]
  bibtex := []

theorem diagnosed_ofUnnamed {d : Diagnostics} :
    .diagnosed d ∈ (ofUnnamed.run [] { tree := thesis }).events ↔ d = unnamedErrors := by
  have hcollected : collections (ofUnnamed.run [] { tree := thesis }).events =
      [.ok unnamedErrors] := by
    decide +kernel
  rw [diagnosed_mem_iff, hcollected, List.mem_singleton, Except.ok.injEq]

theorem linesShort_unnamedErrors : LinesShort unnamedErrors := by
  rw [LinesShort]
  decide +kernel

/-- **Errors that are found need not be available**: one of them cannot be shown, since the
concordance has taken its file away, and the run ends with an error of its own. -/
theorem kind_of_ofUnnamed :
    ofUnnamed.Foreign ∧ ∃ o result d, (ofUnnamed.run [] { tree := thesis }).result = some o ∧
      .drove result ∈ (ofUnnamed.run [] { tree := thesis }).events ∧ result.status ≠ 0 ∧
      .diagnosed d ∈ (ofUnnamed.run [] { tree := thesis }).events ∧ d.found = true ∧
      LinesShort d ∧ o.kind = .unexpectedError := by
  have hhost : (ofThesis 1).Foreign := foreign_onHost ..
  have hf : ofUnnamed.Foreign := {
    which := hhost.which
    choice := hhost.choice
    weaver := fun h => nomatch h
    probe := hhost.probe
    driver := hhost.driver }
  have hfailed : (ofUnnamed.run [] { tree := thesis }).events.any droveAndFailed = true := by
    decide +kernel
  have hkind : (ofUnnamed.run [] { tree := thesis }).result.map (·.kind) =
      some .unexpectedError := by
    decide +kernel
  obtain ⟨o, ho, hk⟩ := Option.map_eq_some_iff.mp hkind
  obtain ⟨result, hr, hs⟩ := exists_of_any_droveAndFailed hfailed
  exact ⟨hf, o, result, _, ho, hr, hs, diagnosed_ofUnnamed.mpr rfl, rfl, linesShort_unnamedErrors,
    hk⟩

end Compilation

end Galley
