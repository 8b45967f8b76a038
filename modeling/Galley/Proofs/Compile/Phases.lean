import Galley.Proofs.Compile.Course
import Mathlib.Data.List.Basic

/-!
# Phases of a compilation

Every attempt goes through its phases in one order, whatever its collaborators do:
`Ending.phases`, read off the course of the attempt. It weaves just if the document is validated
and literate, and typesets just if the document is validated and weaving does not fail.
-/

namespace Galley

/-! ### The order of the phases -/

/-- The phases that are entered. -/
def phasesOf (events : List Event) : List Phase := events.filterMap Event.phase?

@[simp]
theorem phasesOf_append (xs ys : List Event) : phasesOf (xs ++ ys) = phasesOf xs ++ phasesOf ys :=
  List.filterMap_append ..

theorem phasesOf_story (events : List Event) : phasesOf (story events) = phasesOf events := by
  rw [phasesOf, phasesOf, story, List.filterMap_filter]
  refine List.filterMap_congr fun e _ => ?_
  cases e <;> rfl

/-- The phases of a run, by whether it weaves, whether it typesets and whether a stop is reported
in the midst of the report. -/
def phaseOrder (weaves typesets again : Bool) : List Phase :=
  .validating :: ((if weaves then [.weaving] else []) ++
    ((if typesets then [.typesetting] else []) ++
      (.reporting :: ((if again then [.reporting] else []) ++ [.finished]))))

theorem phaseOrder_inj {weaves typesets again weaves' typesets' again' : Bool}
    (h : phaseOrder weaves typesets again = phaseOrder weaves' typesets' again') :
    weaves = weaves' ∧ typesets = typesets' ∧ again = again' := by
  revert weaves typesets again weaves' typesets' again'
  decide

/-- Whether an event tells that weaving failed or raised an error. -/
def Event.failsWeaving : Event → Bool
  | .wove (.failed _) => true
  | .raised .weaver _ => true
  | _ => false

/-- Whether weaving failed or raised an error. -/
def weaveFailed (events : List Event) : Bool := events.any Event.failsWeaving

@[simp]
theorem weaveFailed_append (xs ys : List Event) :
    weaveFailed (xs ++ ys) = (weaveFailed xs || weaveFailed ys) :=
  List.any_append

theorem weaveFailed_story (events : List Event) :
    weaveFailed (story events) = weaveFailed events := by
  rw [weaveFailed, weaveFailed, story, List.any_filter]
  refine congrArg (fun p => events.any p) (funext fun e => ?_)
  cases e <;> rfl

namespace Compilation

variable (c : Compilation)

/-- Whether validation succeeds: the document can be compiled, and its TeX program is supported
and located. -/
def Valid (t : Tree) : Prop :=
  c.Accepts t ∧ ∃ name found, c.programIn t = .ok name ∧ c.which t name = .ok (some found)

variable {c} {t : Tree}

private theorem Validating.valid {x : Directives × Path} {es : List Event}
    (h : c.Validating t (.ok x) es) : c.Valid t := by
  cases h with
  | chosen h hp hw => exact ⟨h, _, _, hp, hw⟩

private theorem Validating.not_valid {stop : Stop} {es : List Event}
    (h : c.Validating t (.error stop) es) : ¬ c.Valid t := by
  rintro ⟨ha, name, found, hp, hw⟩
  cases h with
  | rejected h => exact h ha
  | unsupported h hp' => cases hp.symm.trans hp'
  | raised h hp' hw' | missing h hp' hw' =>
    obtain rfl := Except.ok.inj (hp.symm.trans hp')
    cases hw.symm.trans hw'

theorem Validating.phases {r : Except Stop (Directives × Path)} {es : List Event}
    (h : c.Validating t r es) : phasesOf es = [.validating] ∧ weaveFailed es = false := by
  cases h <;> exact ⟨rfl, rfl⟩

theorem Weaving.phases {r : Except Stop Concordance} {es : List Event} (h : c.Weaving r es) :
    phasesOf es = (if c.isLiterate then [.weaving] else []) ∧
      weaveFailed es = !r.isOk := by
  cases h with
  | plain h | raised h | failed h | woven h => rw [h]; exact ⟨rfl, rfl⟩

theorem Probing.phases {r : Except Stop Unit} {es : List Event} (h : c.Probing r es) :
    phasesOf es = [] ∧ weaveFailed es = false := by
  cases h <;> exact ⟨rfl, rfl⟩

theorem Driving.phases {r : Except Stop ToolOutput} {es : List Event} (h : c.Driving r es) :
    phasesOf es = [] ∧ weaveFailed es = false := by
  cases h <;> exact ⟨rfl, rfl⟩

private theorem phases_failureStory (d : Diagnostics) :
    phasesOf (failureStory d) = [.reporting] ∧ weaveFailed (failureStory d) = false := by
  have hshown (lines : List ProgressLine) : phasesOf (lines.map Event.shown) = [] ∧
      weaveFailed (lines.map Event.shown) = false := by
    induction lines with
    | nil => exact ⟨rfl, rfl⟩
    | cons line rest ih => exact ih
  exact ⟨congrArg (Phase.reporting :: ·) (hshown _).1, (hshown _).2⟩

theorem Reporting.phases {program : Path} {concordance : Concordance} {result : ToolOutput}
    {r : Except Stop Outcome} {es : List Event} (h : c.Reporting program concordance result r es) :
    phasesOf es = [.reporting] ∧ weaveFailed es = false := by
  cases h with
  | succeeded h hc => cases hc <;> exact ⟨rfl, rfl⟩
  | uncollected => exact ⟨rfl, rfl⟩
  | found | process | unshowable => exact phases_failureStory _

variable (c) in
/-- What phases events tell of, by whether they come to typesetting and to a report. -/
def Phased (t : Tree) (typesets reports : Bool) (es : List Event) : Prop :=
  ∃ weaves : Bool,
    phasesOf es = .validating :: ((if weaves then [.weaving] else []) ++
      ((if typesets then [.typesetting] else []) ++ if reports then [.reporting] else [])) ∧
    (weaves = true ↔ c.Valid t ∧ c.isLiterate = true) ∧
    (typesets = true ↔ c.Valid t ∧ weaveFailed es = false)

/-- The events of a document that is typeset, with those behind the probe. -/
private theorem phased_typeset {x : Directives × Path} {concordance : Concordance}
    {rp : Except Stop Unit}
    {es es' es'' ds : List Event} {reports : Bool} (hv : c.Validating t (.ok x) es)
    (hw : c.Weaving (.ok concordance) es') (hp : c.Probing rp es'')
    (hd : phasesOf ds = if reports then [.reporting] else []) (hf : weaveFailed ds = false) :
    c.Phased t true reports (es ++ (es' ++ .entered .typesetting :: (es'' ++ ds))) := by
  have hentered : phasesOf (.entered .typesetting :: (es'' ++ ds)) =
        .typesetting :: phasesOf (es'' ++ ds) ∧
      weaveFailed (.entered .typesetting :: (es'' ++ ds)) = weaveFailed (es'' ++ ds) := ⟨rfl, rfl⟩
  refine ⟨c.isLiterate, ?_, by simp [hv.valid], ?_⟩
  · rw [phasesOf_append, phasesOf_append, hentered.1, phasesOf_append, hv.phases.1, hw.phases.1,
      hp.phases.1, hd]
    rfl
  · rw [weaveFailed_append, weaveFailed_append, hentered.2, weaveFailed_append, hv.phases.2,
      hw.phases.2, hp.phases.2, hf]
    simp [hv.valid, Except.isOk, Except.toBool]

/-- A course with an outcome comes to a report. -/
private theorem Course.phased {r : Except Stop Outcome} {es : List Event} {typesetting : Bool}
    {result? : Option ToolOutput} (h : c.Course t r es typesetting result?) :
    ∃ reports, c.Phased t typesetting reports es ∧ (r.isOk = true → reports = true) := by
  cases h with
  | validating hv =>
    refine ⟨false, ⟨false, ?_, by simp [hv.not_valid], by simp [hv.not_valid]⟩, nofun⟩
    rw [hv.phases.1]
    rfl
  | weaving hv hw =>
    refine ⟨false, ⟨c.isLiterate, ?_, by simp [hv.valid], ?_⟩, nofun⟩
    · rw [phasesOf_append, hv.phases.1, hw.phases.1]
      simp
    · rw [weaveFailed_append, hv.phases.2, hw.phases.2]
      simp [Except.isOk, Except.toBool]
  | probing hv hw hp =>
    have hphased : c.Phased t true false (_ ++ (_ ++ _ :: (_ ++ []))) :=
      phased_typeset hv hw hp rfl rfl
    rw [List.append_nil] at hphased
    exact ⟨false, hphased, nofun⟩
  | driving hv hw hp hd =>
    exact ⟨false, phased_typeset hv hw hp hd.phases.1 hd.phases.2, nofun⟩
  | reporting hv hw hp hd hr =>
    refine ⟨true, phased_typeset hv hw hp ?_ ?_, fun _ => rfl⟩
    · rw [phasesOf_append, hd.phases.1, hr.phases.1]
      rfl
    · rw [weaveFailed_append, hd.phases.2, hr.phases.2]
      rfl

/-- The phases of an attempt and its end, and what decides about weaving and typesetting. A stop
is reported, be it in the midst of a report. -/
theorem Ending.phases {o : Outcome} {es : List Event} {typesetting : Bool}
    {result? : Option ToolOutput} (h : c.Ending t o es typesetting result?) :
    ∃ weaves again : Bool,
      phasesOf (es ++ [.entered .finished]) = phaseOrder weaves typesetting again ∧
      (weaves = true ↔ c.Valid t ∧ c.isLiterate = true) ∧
      (typesetting = true ↔ c.Valid t ∧ weaveFailed es = false) := by
  cases h with
  | reported h =>
    obtain ⟨reports, ⟨weaves, hphases, hweaves, htypesets⟩, hreports⟩ := h.phased
    obtain rfl := hreports rfl
    refine ⟨weaves, false, ?_, hweaves, htypesets⟩
    rw [phasesOf_append, hphases]
    simp [phaseOrder, phasesOf, Event.phase?]
  | @stopped stop _ _ _ h =>
    have hstop : phasesOf (stopStory stop ++ [.entered .finished]) = [.reporting, .finished] := rfl
    obtain ⟨reports, ⟨weaves, hphases, hweaves, htypesets⟩, -⟩ := h.phased
    refine ⟨weaves, reports, ?_, hweaves, ?_⟩
    · rw [List.append_assoc, phasesOf_append, hphases, hstop]
      cases reports <;> simp [phaseOrder]
    · rw [htypesets, weaveFailed_append, show weaveFailed (stopStory _) = false from rfl,
        Bool.or_false]

end Compilation

end Galley
