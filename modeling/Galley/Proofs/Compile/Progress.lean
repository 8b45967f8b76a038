import Galley.Proofs.Compile.Classification
import Galley.Proofs.Diagnostics.Merged
import Galley.Proofs.Work.Leads

/-!
# Progress of a compilation

What a run shows agrees with its outcome, whatever the collaborators do: `sameStory_of_run`.

A `Telling` lists what is shown on the way to each outcome. Its shape is simple (`Telling.shape`):
the line that tells of the driver comes first if it comes at all, and it is the only piece of text
without a line feed at its end. The errors are those of the report on the diagnostics and the
message of the stop. A report that is cut short shows errors of its own before the message; this
takes a weaver that leaves a concordance without its source, which that of a host never does
(`sourcesKnown_onHost`), or a line with more digits than are written.
-/

namespace Galley

/-! ### Streams -/

namespace ProgressStream

variable {σ : Type}

/-- A stream records all that it is shown, and its sink is given all of it in the same order. -/
theorem appendAll_eq (s : ProgressStream σ) (lines : List ProgressLine) :
    (s.appendAll lines).lines = s.lines ++ lines ∧ (s.appendAll lines).sink = s.sink ∧
      (s.appendAll lines).sunk =
        match s.sink with
        | some sink => lines.foldl (fun sunk line => sink line sunk) s.sunk
        | none => s.sunk := by
  induction lines generalizing s with
  | nil => cases h : s.sink <;> simp [appendAll, h]
  | cons line rest ih =>
    obtain ⟨hlines, hsink, hsunk⟩ := ih (s.append line)
    refine ⟨?_, hsink, ?_⟩
    · rw [appendAll, List.foldl_cons, ← appendAll, hlines, append, List.append_assoc]
      rfl
    · rw [appendAll, List.foldl_cons, ← appendAll, hsunk]
      cases h : s.sink <;> simp [append, h]

end ProgressStream

@[simp]
theorem progressErrors_nil : progressErrors [] = [] := rfl

@[simp]
theorem progressErrors_append (xs ys : List ProgressLine) :
    progressErrors (xs ++ ys) = progressErrors xs ++ progressErrors ys := by
  simp [progressErrors]

@[simp]
theorem progressErrors_error (text : String) (lines : List ProgressLine) :
    progressErrors (.error text :: lines) = text :: progressErrors lines := rfl

@[simp]
theorem progressErrors_plain (text : String) (lines : List ProgressLine) :
    progressErrors (.plain text :: lines) = progressErrors lines := rfl

/-! ### Whole lines -/

/-- Whether a piece of text ends in a line feed and is not the one that tells of success. -/
structure ProgressLine.IsWhole (line : ProgressLine) : Prop where
  feed : line.text.toList.getLast? = some '\n'
  notCompleted : line ≠ .plain "completed\n"

namespace ProgressLine

private theorem isWhole_error (text : String) : (error (text ++ "\n")).IsWhole :=
  ⟨by simp [error], fun h => Bool.false_ne_true (congrArg isError h).symm⟩

private theorem isWhole_plain {text : String} (hf : text.toList.getLast? = some '\n')
    (hn : text ≠ "completed\n") : (plain text).IsWhole :=
  ⟨hf, fun h => hn (congrArg ProgressLine.text h)⟩

end ProgressLine

namespace Diagnostics

private theorem isWhole_of_mem_entryLines {base : Path} {entries : List Entry} {line : ProgressLine}
    (h : line ∈ (entryLines base entries).1) : line.IsWhole := by
  induction entries with
  | nil =>
    rw [entryLines, List.mem_singleton] at h
    exact h ▸ ProgressLine.isWhole_plain (by decide) (by decide)
  | cons e rest ih =>
    rw [entryLines] at h
    split at h
    · cases h
    · obtain rfl | h := List.mem_cons.mp h
      · exact ProgressLine.isWhole_error _
      · exact ih h

private theorem isWhole_of_mem_groupLines {base : Path} {title : String} {entries : List Entry}
    (ht : (ProgressLine.plain title).IsWhole) {line : ProgressLine}
    (h : line ∈ (groupLines base title entries).1) : line.IsWhole := by
  rw [groupLines] at h
  split at h
  · cases h
  · obtain rfl | h := List.mem_cons.mp h
    · exact ht
    · exact isWhole_of_mem_entryLines h

theorem isWhole_of_mem_report {d : Diagnostics} {line : ProgressLine} (h : line ∈ d.report.1) :
    line.IsWhole := by
  have htex : line ∈ (groupLines d.base "\nLaTeX errors:\n" d.tex).1 → line.IsWhole :=
    isWhole_of_mem_groupLines (ProgressLine.isWhole_plain (by decide) (by decide))
  have hbib : line ∈ (groupLines d.base "BibTeX errors:\n" d.bibtex).1 → line.IsWhole :=
    isWhole_of_mem_groupLines (ProgressLine.isWhole_plain (by decide) (by decide))
  rw [report] at h
  revert h htex
  rcases groupLines d.base "\nLaTeX errors:\n" d.tex with ⟨shown, _ | _⟩
  · exact fun h htex => htex h
  · exact fun h htex => (List.mem_append.mp h).elim htex hbib

/-- Nothing is reported where nothing was found. -/
private theorem report_of_not_found {d : Diagnostics} (h : d.found = false) : d.report.1 = [] := by
  obtain ⟨htex, hbib⟩ : d.tex = [] ∧ d.bibtex = [] := by
    rw [← List.append_eq_nil_iff]
    by_contra hne
    rw [found_iff.mpr hne] at h
    cases h
  simp [report, groupLines, htex, hbib]

end Diagnostics

/-! ### What is shown on the way to an outcome -/

namespace Event

/-- Whether an event tells that the driver was called: it came to its end or raised an error. -/
def endsDriver : Event → Bool
  | .drove _ => true
  | .raised .driver _ => true
  | _ => false

/-- The diagnostics that an event tells of. -/
def diagnosed? : Event → Option Diagnostics
  | .diagnosed d => some d
  | _ => none

/-- Whether an event shows something or tells of the driver or of diagnostics. -/
def isTelling (e : Event) : Bool := e.shown?.isSome || e.endsDriver || e.diagnosed?.isSome

end Event

/-- Whether the driver was called. -/
def driverCalled (events : List Event) : Bool := events.any Event.endsDriver

/-- The events that show something or tell of the driver or of diagnostics. -/
def telling (events : List Event) : List Event := events.filter Event.isTelling

@[simp]
theorem telling_append (xs ys : List Event) : telling (xs ++ ys) = telling xs ++ telling ys :=
  List.filter_append ..

private theorem telling_cons (e : Event) (es : List Event) :
    telling (e :: es) = if e.isTelling = true then e :: telling es else telling es :=
  List.filter_cons

theorem telling_story (events : List Event) : telling (story events) = telling events := by
  rw [telling, telling, story, List.filter_filter]
  refine List.filter_congr fun e _ => ?_
  cases e <;> simp [Event.isTelling, Event.shown?, Event.endsDriver, Event.diagnosed?, Event.note?]

theorem shown?_telling (events : List Event) :
    (telling events).filterMap Event.shown? = events.filterMap Event.shown? := by
  rw [telling, List.filterMap_filter]
  refine List.filterMap_congr fun e _ => ?_
  cases h : e.shown? <;> simp [Event.isTelling, h]

private theorem driverCalled_telling (events : List Event) :
    driverCalled (telling events) = driverCalled events := by
  rw [driverCalled, driverCalled, telling, List.any_filter]
  refine congrArg (fun p => events.any p) (funext fun e => ?_)
  cases h : e.endsDriver <;> simp [Event.isTelling, h]

private theorem diagnosed_mem_telling {d : Diagnostics} {events : List Event} :
    .diagnosed d ∈ telling events ↔ .diagnosed d ∈ events := by
  simp [telling, Event.isTelling, Event.diagnosed?]

namespace Compilation

variable (c : Compilation)

/-- The outcomes with the events that tell of them. -/
inductive Telling : Outcome → List Event → Prop
  | undriven (stop : Stop) :
      Telling (stop.outcome none) [.shown (.error (stop.message ++ "\n"))]
  | broken (stop : Stop) :
      Telling (stop.outcome none)
        [.shown startLine, .raised .driver stop, .shown (.error (stop.message ++ "\n"))]
  | succeeded (result : ToolOutput) {shown : List ProgressLine}
      (hs : shown = [] ∨ ∃ e, c.CompletionFails (pdfPath c.target) e ∧
        shown = [.error (c.completionFailure (pdfPath c.target) e)]) :
      Telling (c.successOutcome result)
        (.shown startLine :: .drove result :: .shown (.plain "completed\n") ::
          shown.map Event.shown)
  | found (result : ToolOutput) {d : Diagnostics} {lines : List String}
      (hl : d.lines = .ok lines) :
      Telling (c.diagnosticsOutcome result lines)
        (.shown startLine :: .drove result :: .shown (.plain "\n") :: .diagnosed d ::
          d.report.1.map Event.shown)
  | uncollected (stop : Stop) (result : ToolOutput) :
      Telling (stop.outcome (some result))
        [.shown startLine, .drove result, .shown (.plain "\n"),
          .shown (.error (stop.message ++ "\n"))]
  | failed (stop : Stop) (result : ToolOutput) {d : Diagnostics}
      (hd : d.found = false ∨ ¬ d.Showable) :
      Telling (stop.outcome (some result))
        (.shown startLine :: .drove result :: .shown (.plain "\n") :: .diagnosed d ::
          (d.report.1.map Event.shown ++ [.shown (.error (stop.message ++ "\n"))]))

variable {c} {t : Tree}

private theorem Validating.telling_eq {r : Except Stop (Directives × Path)} {es : List Event}
    (h : c.Validating t r es) : telling es = [] := by
  cases h <;> rfl

private theorem Weaving.telling_eq {r : Except Stop Concordance} {es : List Event}
    (h : c.Weaving r es) : telling es = [] := by
  cases h <;> rfl

private theorem Probing.telling_eq {r : Except Stop Unit} {es : List Event} (h : c.Probing r es) :
    telling es = [] := by
  cases h <;> rfl

/-- Until the driver is called nothing is told. -/
private theorem telling_typeset {rv : Except Stop (Directives × Path)}
    {rw : Except Stop Concordance}
    {rp : Except Stop Unit} {es es' es'' : List Event} (hv : c.Validating t rv es)
    (hw : c.Weaving rw es') (hp : c.Probing rp es'') (ds : List Event) :
    telling (es ++ (es' ++ .entered .typesetting :: (es'' ++ ds))) = telling ds := by
  rw [telling_append, telling_append, hv.telling_eq, hw.telling_eq, telling_cons,
    if_neg (by simp [Event.isTelling, Event.shown?, Event.endsDriver, Event.diagnosed?]),
    telling_append, hp.telling_eq]
  rfl

private theorem telling_map_shown (lines : List ProgressLine) :
    telling (lines.map Event.shown) = lines.map Event.shown := by
  simp [telling, Event.isTelling, Event.shown?]

private theorem telling_failureStory (d : Diagnostics) : telling (failureStory d) =
    .shown (.plain "\n") :: .diagnosed d :: d.report.1.map Event.shown := by
  rw [← telling_map_shown]
  rfl

private theorem Driving.telling_eq {result : ToolOutput} {es : List Event}
    (h : c.Driving (.ok result) es) : telling es = [.shown startLine, .drove result] := by
  cases h
  rfl

private theorem Completing.telling_eq {pdf : Path} {es : List Event} (h : c.Completing pdf es) :
    ∃ shown : List ProgressLine, telling es = shown.map Event.shown ∧
      (shown = [] ∨ ∃ e, c.CompletionFails pdf e ∧
        shown = [.error (c.completionFailure pdf e)]) := by
  cases h with
  | nothing | viewed | published => exact ⟨[], rfl, .inl rfl⟩
  | homeless h hh => exact ⟨[_], rfl, .inr ⟨_, .homeless h hh, rfl⟩⟩
  | notViewed _ he | notPublished _ _ he => exact ⟨[_], rfl, .inr ⟨_, he, rfl⟩⟩

/-- What is told of a course that is stopped, together with its message. -/
private theorem Course.telling_of_stop {stop : Stop} {es : List Event} {typesetting : Bool}
    {result? : Option ToolOutput} (h : c.Course t (.error stop) es typesetting result?) :
    c.Telling (stop.outcome result?)
      (telling es ++ [.shown (.error (stop.message ++ "\n"))]) := by
  cases h with
  | validating hv =>
    rw [hv.telling_eq]
    exact .undriven stop
  | weaving hv hw =>
    rw [telling_append, hv.telling_eq, hw.telling_eq]
    exact .undriven stop
  | probing hv hw hp =>
    have htyp := telling_typeset hv hw hp []
    rw [List.append_nil] at htyp
    rw [htyp]
    exact .undriven stop
  | driving hv hw hp hd =>
    rw [telling_typeset hv hw hp]
    cases hd with
    | unchosen => exact .undriven stop
    | raised => exact .broken stop
  | reporting hv hw hp hd hr =>
    rw [telling_typeset hv hw hp, telling_append, hd.telling_eq]
    cases hr with
    | uncollected hs hc => exact .uncollected _ _
    | process hs hc hr hf =>
      rw [telling_failureStory]
      exact .failed _ _ (.inl hf)
    | unshowable hs hc e hr =>
      rw [telling_failureStory]
      refine .failed _ _ (.inr fun hd => ?_)
      obtain ⟨lines, hl⟩ := Diagnostics.exists_lines_eq_ok_iff.mpr hd
      rw [Diagnostics.report_eq_ok_iff.mpr hd, hl] at hr
      obtain h | h := hr <;> cases h

private theorem Course.telling_of_outcome {o : Outcome} {es : List Event} {typesetting : Bool}
    {result? : Option ToolOutput} (h : c.Course t (.ok o) es typesetting result?) :
    c.Telling o (telling es) := by
  cases h with
  | reporting hv hw hp hd hr =>
    rw [telling_typeset hv hw hp, telling_append, hd.telling_eq]
    cases hr with
    | succeeded hs hc =>
      obtain ⟨shown, htell, hshown⟩ := hc.telling_eq
      change c.Telling _ (_ ++ .shown (.plain "completed\n") :: telling _)
      rw [htell]
      exact .succeeded _ hshown
    | found hs hc hr hl hf =>
      rw [telling_failureStory]
      exact .found _ hl

private theorem Ending.telling {o : Outcome} {es : List Event} {typesetting : Bool}
    {result? : Option ToolOutput} (h : c.Ending t o es typesetting result?) :
    c.Telling o (telling es) := by
  cases h with
  | reported h => exact h.telling_of_outcome
  | stopped h =>
    rw [telling_append]
    exact h.telling_of_stop

/-! ### What is shown agrees with the outcome -/

/-- How pieces of text are arranged, by whether the driver was called and whether the compilation
succeeded: the line that tells of the driver comes first, the one that tells of success follows,
and all others are whole lines. -/
inductive Arranged : Bool → Bool → List ProgressLine → Prop
  | undriven {rest : List ProgressLine} (h : ∀ line ∈ rest, line.IsWhole) :
      Arranged false false rest
  | driven {rest : List ProgressLine} (h : ∀ line ∈ rest, line.IsWhole) :
      Arranged true false (startLine :: rest)
  | succeeded {rest : List ProgressLine} (h : ∀ line ∈ rest, line.IsWhole) :
      Arranged true true (startLine :: .plain "completed\n" :: rest)

private theorem shown?_map_shown (lines : List ProgressLine) :
    (lines.map Event.shown).filterMap Event.shown? = lines := by
  rw [List.filterMap_map]
  exact List.filterMap_some

private theorem Telling.arranged {o : Outcome} {es : List Event} (h : c.Telling o es) :
    Arranged (driverCalled es) o.success (es.filterMap Event.shown?) := by
  have hstop (stop : Stop) (result? : Option ToolOutput) :
      (stop.outcome result?).success = false := by
    cases stop <;> rfl
  have herror (text : String) : ∀ line ∈ [ProgressLine.error (text ++ "\n")], line.IsWhole :=
    List.forall_mem_singleton.mpr (ProgressLine.isWhole_error text)
  have hfeed : (ProgressLine.plain "\n").IsWhole :=
    ProgressLine.isWhole_plain (by decide) (by decide)
  have hreport (d : Diagnostics) : ∀ line ∈ d.report.1, line.IsWhole :=
    fun _ => Diagnostics.isWhole_of_mem_report
  cases h with
  | undriven stop =>
    rw [hstop]
    exact .undriven (herror _)
  | broken stop =>
    rw [hstop]
    exact .driven (herror _)
  | @succeeded result shown hs =>
    change Arranged true true
      (startLine :: .plain "completed\n" :: (shown.map Event.shown).filterMap Event.shown?)
    rw [shown?_map_shown]
    obtain rfl | ⟨e, -, rfl⟩ := hs
    · exact .succeeded (by simp)
    · exact .succeeded (herror _)
  | @found result d lines hl =>
    change Arranged true false
      (startLine :: .plain "\n" :: (d.report.1.map Event.shown).filterMap Event.shown?)
    rw [shown?_map_shown]
    exact .driven (List.forall_mem_cons.mpr ⟨hfeed, hreport d⟩)
  | uncollected stop =>
    rw [hstop]
    exact .driven (List.forall_mem_cons.mpr ⟨hfeed, herror _⟩)
  | @failed stop result d hd =>
    rw [hstop]
    change Arranged true false (startLine :: .plain "\n" ::
      (d.report.1.map Event.shown ++ [Event.shown (.error (stop.message ++ "\n"))]).filterMap
        Event.shown?)
    rw [List.filterMap_append, shown?_map_shown]
    refine .driven (List.forall_mem_cons.mpr ⟨hfeed, ?_⟩)
    exact List.forall_mem_append.mpr ⟨hreport d, herror _⟩

namespace Arranged

variable {called success : Bool} {lines : List ProgressLine}

private theorem text_ne {line : ProgressLine} (h : line.IsWhole) : line.text ≠ startLine.text := by
  intro he
  have hf := h.feed
  rw [he] at hf
  exact absurd hf (by decide)

/-- The line that tells of the driver is shown once, or not at all. -/
theorem count (h : Arranged called success lines) :
    (lines.map (·.text)).count startLine.text = if called = true then 1 else 0 := by
  have hwhole {rest : List ProgressLine} (h : ∀ line ∈ rest, line.IsWhole) :
      (rest.map (·.text)).count startLine.text = 0 := by
    rw [List.count_eq_zero, List.mem_map]
    rintro ⟨line, hl, he⟩
    exact text_ne (h line hl) he
  cases h with
  | undriven h => simp [hwhole h]
  | driven h => simp [hwhole h]
  | succeeded h =>
    have hne : (ProgressLine.plain "completed\n").text ≠ startLine.text := by decide
    simp [hwhole h, hne]

/-- Success is told just if there is one. -/
theorem completed_mem_iff (h : Arranged called success lines) :
    .plain "completed\n" ∈ lines ↔ success = true := by
  have hwhole {rest : List ProgressLine} (h : ∀ line ∈ rest, line.IsWhole) :
      .plain "completed\n" ∉ rest := fun hm => (h _ hm).notCompleted rfl
  have hne : ProgressLine.plain "completed\n" ≠ startLine := by decide
  cases h with
  | undriven h => simp [hwhole h]
  | driven h => simp [hwhole h, hne]
  | succeeded h => simp

/-- Nothing stands before the line that tells of the driver. -/
theorem before_eq_nil (h : Arranged called success lines) {before behind : List ProgressLine}
    {line : ProgressLine} (hl : lines = before ++ line :: behind)
    (ht : line.text = startLine.text) : before = [] := by
  cases before with
  | nil => rfl
  | cons first before =>
    -- behind the first piece no text is that of the marker
    have hmem : line ∈ lines.tail := by simp [hl]
    refine absurd ht ?_
    cases h with
    | undriven h => exact text_ne (h line (List.mem_of_mem_tail hmem))
    | driven h => exact text_ne (h line hmem)
    | succeeded h =>
      obtain rfl | hmem := List.mem_cons.mp hmem
      · decide
      · exact text_ne (h line hmem)

end Arranged

private theorem progressErrors_startLine (lines : List ProgressLine) :
    progressErrors (startLine :: lines) = progressErrors lines :=
  progressErrors_plain ..

/-- The errors on the way to diagnostics are the diagnostics. -/
private theorem Telling.errors_of_diagnostics {o : Outcome} {es : List Event} (h : c.Telling o es)
    (hd : o.kind = .diagnosticsAvailable) :
    progressErrors (es.filterMap Event.shown?) = o.diagnostics.map (· ++ "\n") := by
  cases h with
  | undriven stop | broken stop | uncollected stop | failed stop => cases stop <;> cases hd
  | succeeded => cases hd
  | @found result d lines hl =>
    change progressErrors (startLine :: .plain "\n" ::
      (d.report.1.map Event.shown).filterMap Event.shown?) = lines.map (· ++ "\n")
    rw [progressErrors_startLine, progressErrors_plain, shown?_map_shown]
    exact Diagnostics.progressErrors_report hl

/-- The errors on the way to a success come from what was to be done with the PDF. -/
private theorem Telling.errors_of_success {o : Outcome} {es : List Event} (h : c.Telling o es)
    (hs : o.kind = .success) : progressErrors (es.filterMap Event.shown?) = [] ∨
      ∃ e, c.CompletionFails (pdfPath c.target) e ∧
        progressErrors (es.filterMap Event.shown?) =
          [c.completionFailure (pdfPath c.target) e] := by
  cases h with
  | undriven stop | broken stop | uncollected stop | failed stop => cases stop <;> cases hs
  | found => cases hs
  | @succeeded result shown hshown =>
    change progressErrors (startLine :: .plain "completed\n" ::
      (shown.map Event.shown).filterMap Event.shown?) = [] ∨ ∃ e, _ ∧
        progressErrors (startLine :: .plain "completed\n" ::
          (shown.map Event.shown).filterMap Event.shown?) = _
    rw [progressErrors_startLine, progressErrors_plain, shown?_map_shown]
    obtain rfl | ⟨e, he, rfl⟩ := hshown
    · exact .inl rfl
    · exact .inr ⟨e, he, rfl⟩

/-- The last error on the way to a failure is its message, and it is the only one unless a report
is cut short. -/
private theorem Telling.errors_of_failure {o : Outcome} {es : List Event} (h : c.Telling o es)
    (hs : o.kind ≠ .success) (hd : o.kind ≠ .diagnosticsAvailable) :
    ∃ cut, progressErrors (es.filterMap Event.shown?) = cut ++ [o.message ++ "\n"] ∧
      (cut = [] ∨
        ∃ d, .diagnosed d ∈ es ∧ ¬ d.Showable ∧ cut = progressErrors d.report.1) := by
  cases h with
  | undriven stop | broken stop | uncollected stop => exact ⟨[], rfl, .inl rfl⟩
  | succeeded => exact absurd rfl hs
  | found => exact absurd rfl hd
  | @failed stop result d hcut =>
    refine ⟨progressErrors d.report.1, ?_, ?_⟩
    · change progressErrors (startLine :: .plain "\n" ::
        (d.report.1.map Event.shown ++ [Event.shown (.error (stop.message ++ "\n"))]).filterMap
          Event.shown?) = _
      rw [progressErrors_startLine, progressErrors_plain, List.filterMap_append, shown?_map_shown,
        progressErrors_append]
      rfl
    · obtain hf | hshow := hcut
      · exact .inl (by rw [Diagnostics.report_of_not_found hf, progressErrors_nil])
      · exact .inr ⟨d, by simp, hshow, rfl⟩

/-- What a stream `s`, whose sink began with `start`, and the outcome `o` have to do with each
other after a run with the given events. -/
structure SameStory (c : Compilation) (events : List Event) (o : Outcome) {σ : Type} (start : σ)
    (s : ProgressStream σ) : Prop where
  diagnostics (h : o.kind = .diagnosticsAvailable) : s.errors = o.diagnostics.map (· ++ "\n")
  /-- If the lines are short and the weaver names the sources, no report is cut short. -/
  failure (hs : o.kind ≠ .success) (hd : o.kind ≠ .diagnosticsAvailable)
    (hk : SourcesKnown events) (hl : ∀ d, .diagnosed d ∈ events → LinesShort d) :
    s.errors = [o.message ++ "\n"]
  /-- Only the errors of a report that is cut short come before the message of a failure. -/
  message_last (hs : o.kind ≠ .success) (hd : o.kind ≠ .diagnosticsAvailable) :
    ∃ cut, s.errors = cut ++ [o.message ++ "\n"] ∧ (cut = [] ∨
      ∃ d, .diagnosed d ∈ events ∧ ¬ d.Showable ∧ cut = progressErrors d.report.1)
  success (h : o.kind = .success) : s.errors = [] ∨
    ∃ e, c.CompletionFails (pdfPath c.target) e ∧
      s.errors = [c.completionFailure (pdfPath c.target) e]
  marker : (s.lines.map (·.text)).count startLine.text =
    if driverCalled events = true then 1 else 0
  completed : .plain "completed\n" ∈ s.lines ↔ o.kind = .success
  errors_behind {before behind : List ProgressLine} {line : ProgressLine}
    (h : s.lines = before ++ line :: behind) (ht : line.text = startLine.text) :
    progressErrors before = []
  sunk : s.sunk =
    match s.sink with
    | some sink => s.lines.foldl (fun sunk line => sink line sunk) start
    | none => start

/-- **The stream and the outcome tell the same story**, in every run, whatever the collaborators
do. -/
theorem sameStory_of_run (c : Compilation) (past : List Event) (t : Tree) {σ : Type}
    (sink : Option (ProgressLine → σ → σ)) (start : σ) :
    ∃ o, (c.run past { tree := t }).result = some o ∧
      c.SameStory (c.run past { tree := t }).events o start
        (({ sink, sunk := start } : ProgressStream σ).follow
          (c.run past { tree := t }).events) := by
  obtain ⟨hr, hs, -⟩ := run_eq_some (c := c) (a := { tree := t }) rfl past
  obtain ⟨he, -⟩ := meets_carryOut (c := c) (t := t) past
  have htell : c.Telling (c.carryOut past { tree := t }).result
      (telling (c.run past { tree := t }).events) := by
    rw [← telling_story, hs, telling_append, show telling [.entered .finished] = [] from rfl,
      List.append_nil]
    exact he.telling
  generalize (c.carryOut past { tree := t }).result = o at hr htell
  have hshow := @showable_of_run c t past
  generalize (c.run past { tree := t }).events = events at htell hshow ⊢
  obtain ⟨hlines, hsink, hsunk⟩ := ProgressStream.appendAll_eq
    ({ sink, sunk := start } : ProgressStream σ) (events.filterMap Event.shown?)
  rw [← ProgressStream.follow] at hlines hsink hsunk
  rw [List.nil_append] at hlines
  have herrors : (ProgressStream.follow { sink, sunk := start } events).errors =
      progressErrors ((telling events).filterMap Event.shown?) := by
    rw [ProgressStream.errors, hlines, shown?_telling]
  have harr : Arranged (driverCalled events) o.success
      (ProgressStream.follow { sink, sunk := start } events).lines := by
    rw [hlines, ← shown?_telling, ← driverCalled_telling]
    exact htell.arranged
  have hsuccess : o.success = true ↔ o.kind = .success := by simp [Outcome.success]
  refine ⟨o, hr, ?_⟩
  constructor
  · intro h
    rw [herrors, htell.errors_of_diagnostics h]
  · intro hs hd hk hl
    obtain ⟨cut, he, rfl | ⟨d, hm, hn, -⟩⟩ := htell.errors_of_failure hs hd
    · rw [herrors, he, List.nil_append]
    · rw [diagnosed_mem_telling] at hm
      exact absurd (hshow hk hm (hl d hm)) hn
  · intro hs hd
    simpa only [herrors, diagnosed_mem_telling] using htell.errors_of_failure hs hd
  · intro h
    rw [herrors]
    exact htell.errors_of_success h
  · exact harr.count
  · rw [harr.completed_mem_iff, hsuccess]
  · intro before behind line h ht
    rw [harr.before_eq_nil h ht, progressErrors_nil]
  · rw [hsunk, hsink, hlines]

/-- **A failure with two errors in the stream**: the first one of the diagnostics is shown, the
second one cannot be, and that is the message of the outcome. -/
theorem errors_of_ofUnnamed :
    ∃ o, (ofUnnamed.run [] { tree := thesis }).result = some o ∧ o.kind = .unexpectedError ∧
      (∀ d, .diagnosed d ∈ (ofUnnamed.run [] { tree := thesis }).events → LinesShort d) ∧
      (({ sink := none, sunk := () } : ProgressStream Unit).follow
        (ofUnnamed.run [] { tree := thesis }).events).errors =
        ["a.tex (line 3): m\n", o.message ++ "\n"] := by
  have hkind : (ofUnnamed.run [] { tree := thesis }).result.map (fun o => (o.kind, o.message)) =
      some (.unexpectedError,
        "Unexpected error: 'NoneType' object has no attribute 'relative_to'") := by
    decide +kernel
  obtain ⟨o, ho, hk⟩ := Option.map_eq_some_iff.mp hkind
  obtain ⟨hk, hm⟩ := Prod.mk.inj hk
  refine ⟨o, ho, hk, fun d hd => ?_, ?_⟩
  · rw [diagnosed_ofUnnamed.mp hd]
    exact linesShort_unnamedErrors
  · rw [hm]
    decide +kernel

/-! ### The weaver of a host -/

private theorem Weaving.weaver_of_wove {r : Except Stop Concordance} {es : List Event}
    (h : c.Weaving r es) {tex : Path} {concordance : Concordance}
    (hw : .wove (.woven tex concordance) ∈ es) :
    ∃ directives past t,
      ((c.weaver c.target directives).run past t).result = .ok (.woven tex concordance) := by
  cases h with
  | plain | raised | failed => simp at hw
  | woven _ _ _ hs =>
    simp only [List.mem_cons, List.not_mem_nil, reduceCtorEq, Event.wove.injEq,
      WeaveResult.woven.injEq, false_or, or_false] at hw
    obtain ⟨rfl, rfl⟩ := hw
    exact hs

/-- Nothing but weaving tells of a woven document. -/
private theorem Course.exists_weaving {r : Except Stop Outcome} {es : List Event}
    {typesetting : Bool}
    {result? : Option ToolOutput} (h : c.Course t r es typesetting result?) {result : WeaveResult}
    (hw : .wove result ∈ es) : ∃ r' es', c.Weaving r' es' ∧ .wove result ∈ es' := by
  cases h with
  | validating hv => cases hv <;> simp at hw
  | weaving hv hw' =>
    obtain hw | hw := List.mem_append.mp hw
    · cases hv
      simp at hw
    · exact ⟨_, _, hw', hw⟩
  | probing hv hw' hp =>
    refine ⟨_, _, hw', ?_⟩
    cases hv
    cases hp
    simpa using hw
  | driving hv hw' hp hd =>
    refine ⟨_, _, hw', ?_⟩
    cases hv
    cases hp <;> cases hd <;> simpa using hw
  | reporting hv hw' hp hd hr =>
    refine ⟨_, _, hw', ?_⟩
    cases hv
    cases hd
    cases hr with
    | succeeded _ hc => cases hp <;> cases hc <;> simpa using hw
    | uncollected => cases hp <;> simpa using hw
    | found | process | unshowable => cases hp <;> simpa [failureStory] using hw

private theorem Ending.exists_weaving {o : Outcome} {es : List Event} {typesetting : Bool}
    {result? : Option ToolOutput} (h : c.Ending t o es typesetting result?) {result : WeaveResult}
    (hw : .wove result ∈ es) : ∃ r' es', c.Weaving r' es' ∧ .wove result ∈ es' := by
  cases h with
  | reported h => exact h.exists_weaving hw
  | stopped h => exact h.exists_weaving (by simpa [stopStory] using hw)

end Compilation

namespace Concordance

/-- An entry of a concordance file names its source. -/
private theorem inputFile_isSome_of_ofBody {baseDir : Path} {body : List Char} {c : Concordance}
    (h : ofBody baseDir body = .ok c) : c.inputFile.isSome = true := by
  rw [ofBody] at h
  split at h
  · next keyword output input field rest _ =>
    by_cases hk : keyword ≠ "concordance".toList
    · simp only [if_pos hk] at h
      cases h
    · simp only [if_neg hk] at h
      by_cases ho : (Text.dropLead? "ofs".toList field).isSome = true
      · simp only [if_pos ho] at h
        obtain ⟨offset, -, h⟩ := exists_of_bind_eq_ok h
        cases rest with
        | nil => cases h
        | cons numbers rest =>
          obtain ⟨lines, -, h⟩ := exists_of_bind_eq_ok h
          cases h
          rfl
      · simp only [if_neg ho] at h
        obtain ⟨lines, -, h⟩ := exists_of_bind_eq_ok h
        cases h
        rfl
  · cases h

/-- A concordance that is loaded is empty or names its source. -/
theorem knownSource_of_load {t : Tree} {here p : Path} {c : Concordance}
    (h : load t here p = .ok c) : c.isEmpty = true ∨ c.inputFile.isSome = true := by
  rw [load] at h
  split at h
  · cases h
    exact .inl rfl
  · obtain ⟨content, -, h⟩ := exists_of_bind_eq_ok h
    obtain ⟨text, -, h⟩ := exists_of_bind_eq_ok h
    obtain ⟨all, ha, h⟩ := exists_of_bind_eq_ok h
    cases h
    have hall := forall₂_of_mapM_eq_ok (eq_ok_of_mapError ha)
    generalize entryBodiesFrom 0 _ = bodies at hall
    cases hall with
    | nil => exact .inl rfl
    | cons hc _ => exact .inr (inputFile_isSome_of_ofBody hc)

end Concordance

namespace Weaver

open Work

variable {host : Host} {programs : Programs} {s : Settings} {target : Path} {d : Directives}
  {past : List Note} {t : Tree} {tex : Path} {c : Concordance}

private theorem leads_collect_knownSource {here : Path} :
    Leads (collect here target).run past t fun r _ _ =>
      r = .ok (.woven tex c) → c.isEmpty = true ∨ c.inputFile.isSome = true := by
  refine leads_lift_bind (leads_tree ?_)
  split
  · exact leads_stage_pure (by simp)
  · split
    · next hl =>
      refine leads_stage_pure ?_
      rintro ⟨⟩
      exact Concordance.knownSource_of_load hl
    · exact leads_throw (by simp)
    · refine leads_lift_bind (leads_logWeaving (leads_stage_pure ?_))
      rintro ⟨⟩
      exact .inl rfl

/-- The concordances of a weaver that runs R come from files. -/
private theorem knownSource_viaR
    (h : ((viaR host programs s target d).run past t).result = .ok (.woven tex c)) :
    c.isEmpty = true ∨ c.inputFile.isSome = true := by
  have key : Leads (viaR host programs s target d).run past t fun r _ _ =>
      r = .ok (.woven tex c) → c.isEmpty = true ∨ c.inputFile.isSome = true := by
    rw [viaR]
    split
    · exact leads_stage_pure (by simp)
    · refine leads_lift_bind (leads_tree ?_)
      split
      · exact leads_stage_pure (by simp)
      · refine leads_lift_bind (leads_logWeaving (leads_lift_bind (leads_logWeaving ?_)))
        refine leads_lift_bind (leads_start ?_)
        split
        · exact leads_stage_pure (by simp)
        · exact leads_throw (by simp)
        · split
          · exact leads_collect_knownSource
          · refine leads_lift_bind (leads_logWeaving ?_)
            dsimp only
            split <;> exact leads_stage_pure (by simp)
  exact key h

end Weaver

namespace Compilation

/-- **The weaver of a host names the sources**, so that on a host only a line that is too long
cuts a report short. -/
theorem sourcesKnown_onHost (host : Host) (programs : Programs)
    (viewer : Path → ExceptT Crash (Work Note Tree) Unit) (target : String)
    (completion : Completion) (settings : Settings) (past : List Event) (t : Tree) :
    SourcesKnown
      ((onHost host programs viewer target completion settings).run past { tree := t }).events := by
  intro tex concordance hw
  let c := onHost host programs viewer target completion settings
  obtain ⟨he, -⟩ := meets_carryOut (c := c) (t := t) past
  have hstory : .wove (.woven tex concordance) ∈ story (c.carryOut past { tree := t }).events :=
    (mem_events_run rfl (by simp) past).mp hw
  obtain ⟨r, es, hweave, hes⟩ := he.exists_weaving hstory
  obtain ⟨directives, past', t', hr⟩ := hweave.weaver_of_wove hes
  exact Weaver.knownSource_viaR (eq_ok_of_mapError hr)

end Compilation

end Galley
