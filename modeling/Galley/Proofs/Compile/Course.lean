import Galley.Proofs.Compile.Stages

/-!
# Courses of a compilation

The **course** of a compilation says which stages it goes through, where it stops, and what it
tells on the way. Each stage has a relation with one constructor per exit; an exit that a
collaborator causes keeps the evidence that the collaborator raised the error. `Course` puts the
stages together.
-/

namespace Galley

namespace Compilation

variable (c : Compilation)

/-! ### Exits of the stages -/

/-- The directives of the document in a tree. -/
def directivesIn (t : Tree) : Directives :=
  match t.read c.here c.target with
  | .ok content => .ofBytes content
  | .error _ => {}

/-- The name of the TeX program that the document asks for in a tree, if it is supported. -/
def programIn (t : Tree) : Except TexProgram.Problem String :=
  TexProgram.supportedName (c.directivesIn t) c.settings

/-- Whether the document can be compiled. -/
def Accepts (t : Tree) : Prop := c.hasBlankName = false ∧ t.contains c.here c.target = true

instance (t : Tree) : Decidable (c.Accepts t) := inferInstanceAs (Decidable (_ ∧ _))

/-- The exits of the checks before anything is started. -/
inductive Validating (t : Tree) : Except Stop (Directives × Path) → List Event → Prop
  | rejected (h : ¬ c.Accepts t) (message : String) :
      Validating t (.error (.invalidInput message)) [.entered .validating]
  | unsupported (h : c.Accepts t) {problem : TexProgram.Problem}
      (hp : c.programIn t = .error problem) :
      Validating t (.error (.toolResolution problem.message)) [.entered .validating]
  | raised (h : c.Accepts t) {name : String} {stop : Stop} (hp : c.programIn t = .ok name)
      (hw : c.which t name = .error stop) :
      Validating t (.error stop) [.entered .validating, .raised .lookup stop]
  | missing (h : c.Accepts t) {name : String} (hp : c.programIn t = .ok name)
      (hw : c.which t name = .ok none) :
      Validating t (.error (.toolResolution (TexProgram.Problem.missing name).message))
        [.entered .validating]
  | chosen (h : c.Accepts t) {name found : String} (hp : c.programIn t = .ok name)
      (hw : c.which t name = .ok (some found)) :
      Validating t (.ok (c.directivesIn t, c.here.join (Path.ofString found)))
        [.entered .validating]

/-- The exits of weaving; a document that is not literate is not woven. -/
inductive Weaving : Except Stop Concordance → List Event → Prop
  | plain (h : c.isLiterate = false) : Weaving (.ok .empty) []
  | raised (h : c.isLiterate = true) {stop : Stop}
      (hs : ∃ directives past t,
        ((c.weaver c.target directives).run past t).result = .error stop) :
      Weaving (.error stop) [.entered .weaving, .raised .weaver stop]
  | failed (h : c.isLiterate = true) (reason : String) :
      Weaving (.error (.weave reason)) [.entered .weaving, .wove (.failed reason)]
  | woven (h : c.isLiterate = true) (tex : Path) (concordance : Concordance)
      (hs : ∃ directives past t,
        ((c.weaver c.target directives).run past t).result = .ok (.woven tex concordance)) :
      Weaving (.ok concordance) [.entered .weaving, .wove (.woven tex concordance)]

/-- The exits of the probe: it stops the compilation only with an error that is not about the
version. -/
inductive Probing : Except Stop Unit → List Event → Prop
  | known : Probing (.ok ()) []
  | unknown (message : String) :
      Probing (.ok ()) [.raised .probe (.version message), .warned message]
  | raised {stop : Stop} (hv : ∀ message, stop ≠ .version message)
      (hs : ∃ program past t, ((c.probe program).run past t).result = .error stop) :
      Probing (.error stop) [.raised .probe stop]

/-- The line that tells that the driver starts. -/
def startLine : ProgressLine := .plain "\nRunning LaTeX compiler..."

/-- The exits of driving. -/
inductive Driving : Except Stop ToolOutput → List Event → Prop
  | unchosen {stop : Stop} (hs : ∃ t, c.driver t = .error stop) :
      Driving (.error stop) [.raised .lookup stop]
  | raised {stop : Stop}
      (hs : ∃ (t : Tree) (driver : Driver Stop), c.driver t = .ok driver ∧
        ∃ tex options past t', ((driver.run tex options).run past t').result = .error stop) :
      Driving (.error stop) [.shown startLine, .raised .driver stop]
  | drove (result : ToolOutput) :
      Driving (.ok result) [.shown startLine, .drove result]

/-- The ways in which what is to be done with the PDF fails. -/
inductive CompletionFails (pdf : Path) : Crash → Prop
  | viewer (h : c.completion = .view) {e : Crash}
      (hs : ∃ past t, ((c.viewer pdf).run past t).result = .error e) : CompletionFails pdf e
  | homeless (h : c.completion = .publish) (hh : c.home = none) : CompletionFails pdf .homeless
  | publisher (h : c.completion = .publish) {home : Path} (hh : c.home = some home) {e : Crash}
      (hs : ∃ past t, ((c.publisher (pdf.aliased home)).run past t).result = .error e) :
      CompletionFails pdf e

/-- What is done with the PDF, and what is shown if that fails. -/
inductive Completing (pdf : Path) : List Event → Prop
  | nothing (h : c.completion = .none) : Completing pdf []
  | viewed (h : c.completion = .view) : Completing pdf [.viewed pdf]
  | notViewed (h : c.completion = .view) {e : Crash} (he : c.CompletionFails pdf e) :
      Completing pdf [.viewed pdf, .shown (.error (c.completionFailure pdf e))]
  | homeless (h : c.completion = .publish) (hh : c.home = none) :
      Completing pdf [.shown (.error (c.completionFailure pdf .homeless))]
  | published (h : c.completion = .publish) {home : Path} (hh : c.home = some home) :
      Completing pdf [.published (pdf.aliased home)]
  | notPublished (h : c.completion = .publish) {home : Path} (hh : c.home = some home) {e : Crash}
      (he : c.CompletionFails pdf e) :
      Completing pdf [.published (pdf.aliased home), .shown (.error (c.completionFailure pdf e))]

/-- The outcome of a toolchain that succeeded. -/
def successOutcome (result : ToolOutput) : Outcome :=
  { kind := .success, pdf := some (pdfPath c.target), status := some result.status,
    output := result.output, errors := result.errors }

/-- The outcome of a toolchain that failed with diagnostics. -/
def diagnosticsOutcome (result : ToolOutput) (lines : List String) : Outcome :=
  { kind := .diagnosticsAvailable
    message := toString lines.length ++ " problems found compiling " ++ c.target.name
    diagnostics := lines, status := some result.status, output := result.output,
    errors := result.errors }

/-- The story of a report on a toolchain that failed. -/
def failureStory (d : Diagnostics) : List Event :=
  .entered .reporting :: .shown (.plain "\n") :: .diagnosed d :: d.report.1.map .shown

/-- Whether collecting diagnostics with a concordance comes to a result. -/
def Collects (concordance : Concordance) (r : Except Crash Diagnostics) : Prop :=
  ∃ tex past t, (Diagnostics.collect c.here tex concordance past t).result = r

/-- The exits of a report. -/
inductive Reporting (program : Path) (concordance : Concordance) (result : ToolOutput) :
    Except Stop Outcome → List Event → Prop
  | succeeded (h : result.status = 0) {es : List Event} (hc : c.Completing (pdfPath c.target) es) :
      Reporting program concordance result (.ok (c.successOutcome result))
        (.entered .reporting :: .shown (.plain "completed\n") :: es)
  | uncollected (h : result.status ≠ 0) {e : Crash} (hd : c.Collects concordance (.error e)) :
      Reporting program concordance result (.error (.crash e))
        [.entered .reporting, .shown (.plain "\n"), .undiagnosed e]
  | found (h : result.status ≠ 0) {d : Diagnostics} (hd : c.Collects concordance (.ok d))
      {lines : List String} (hr : d.report.2 = .ok ()) (hl : d.lines = .ok lines)
      (hf : d.found = true) :
      Reporting program concordance result (.ok (c.diagnosticsOutcome result lines))
        (failureStory d)
  | process (h : result.status ≠ 0) {d : Diagnostics} (hd : c.Collects concordance (.ok d))
      (hr : d.report.2 = .ok ()) (hf : d.found = false) :
      Reporting program concordance result (.error (.process program result.status))
        (failureStory d)
  | unshowable (h : result.status ≠ 0) {d : Diagnostics} (hd : c.Collects concordance (.ok d))
      (e : Crash) (hr : d.report.2 = .error e ∨ d.lines = .error e) :
      Reporting program concordance result (.error (.crash e)) (failureStory d)

/-- How far a compilation comes before a stop is reported: its result and story, whether
typesetting is reached, and what the toolchain left. -/
inductive Course (t : Tree) :
    Except Stop Outcome → List Event → Bool → Option ToolOutput → Prop
  | validating {stop : Stop} {es : List Event} (hv : c.Validating t (.error stop) es) :
      Course t (.error stop) es false none
  | weaving {x : Directives × Path} {stop : Stop} {es es' : List Event}
      (hv : c.Validating t (.ok x) es) (hw : c.Weaving (.error stop) es') :
      Course t (.error stop) (es ++ es') false none
  | probing {x : Directives × Path} {concordance : Concordance} {stop : Stop}
      {es es' es'' : List Event} (hv : c.Validating t (.ok x) es)
      (hw : c.Weaving (.ok concordance) es') (hp : c.Probing (.error stop) es'') :
      Course t (.error stop) (es ++ (es' ++ .entered .typesetting :: es'')) true none
  | driving {x : Directives × Path} {concordance : Concordance} {stop : Stop}
      {es es' es'' ds : List Event} (hv : c.Validating t (.ok x) es)
      (hw : c.Weaving (.ok concordance) es') (hp : c.Probing (.ok ()) es'')
      (hd : c.Driving (.error stop) ds) :
      Course t (.error stop) (es ++ (es' ++ .entered .typesetting :: (es'' ++ ds))) true none
  | reporting {x : Directives × Path} {concordance : Concordance} {result : ToolOutput}
      {r : Except Stop Outcome} {es es' es'' ds rs : List Event}
      (hv : c.Validating t (.ok x) es) (hw : c.Weaving (.ok concordance) es')
      (hp : c.Probing (.ok ()) es'') (hd : c.Driving (.ok result) ds)
      (hr : c.Reporting x.2 concordance result r rs) :
      Course t r (es ++ (es' ++ .entered .typesetting :: (es'' ++ (ds ++ rs)))) true (some result)

variable {c} in
/-- Without typesetting there is nothing that the toolchain left. -/
theorem Course.result?_eq_none {t : Tree} {r : Except Stop Outcome} {es : List Event}
    {result? : Option ToolOutput} (h : c.Course t r es false result?) : result? = none := by
  cases h <;> rfl

variable {c} in
/-- An outcome is reported only of a toolchain that came to its end, by its status. -/
theorem Course.exists_result {t : Tree} {o : Outcome} {es : List Event} {typesetting : Bool}
    {result? : Option ToolOutput} (h : c.Course t (.ok o) es typesetting result?) :
    typesetting = true ∧
      ∃ result, result? = some result ∧ (o.kind = .success ↔ result.status = 0) := by
  cases h with
  | reporting hv hw hp hd hr =>
    refine ⟨rfl, _, rfl, ?_⟩
    cases hr with
    | succeeded h hc => simp [h, successOutcome]
    | found h hr hl hf => simp [h, diagnosticsOutcome]

/-- What a stop adds to the story of a compilation. -/
def stopStory (stop : Stop) : List Event :=
  [.entered .reporting, .shown (.error (stop.message ++ "\n"))]

/-- How an attempt ends: with the outcome that is reported, or with the outcome of a stop. -/
inductive Ending (t : Tree) : Outcome → List Event → Bool → Option ToolOutput → Prop
  | reported {o : Outcome} {es : List Event} {typesetting : Bool} {result? : Option ToolOutput}
      (h : c.Course t (.ok o) es typesetting result?) : Ending t o es typesetting result?
  | stopped {stop : Stop} {es : List Event} {typesetting : Bool} {result? : Option ToolOutput}
      (h : c.Course t (.error stop) es typesetting result?) :
      Ending t (stop.outcome result?) (es ++ stopStory stop) typesetting result?

end Compilation

end Galley
