import Galley.Program.Script
import Galley.Proofs.Result
import Galley.Proofs.Work.Leads
import Galley.Weaver

/-!
# What weaving comes to

Weaving succeeds just if the engine is known, the R program is located, it ends with the status
zero, and the woven document is there. The concordance of a success is the first entry of the
concordance file, or the empty one where the file cannot be used. `weaves_viaR` is the main
result.

One flaw of a concordance file is not let pass: where the first bad entry has an offset field
without a number in it, weaving raises an error although the document is woven
(`viaR_of_bareOffset`).
-/

namespace Galley

open Text Work

/-! ### Concordance files -/

namespace Concordance

variable {t : Tree} {here p : Path}

/-- Whether a concordance file can be read and holds UTF-8, and its entries are read as `r`. -/
def ReadAs (t : Tree) (here p : Path) (r : Except ConcordanceError (List Concordance)) : Prop :=
  ∃ content text, t.read here p = .ok content ∧ utf8 content = .ok text ∧
    readAll p.parent (unifyBreaks text) = r

theorem ReadAs.unique {r r' : Except ConcordanceError (List Concordance)}
    (h : ReadAs t here p r) (h' : ReadAs t here p r') : r = r' := by
  obtain ⟨content, text, hc, ht, hr⟩ := h
  obtain ⟨content', text', hc', ht', hr'⟩ := h'
  obtain rfl := Except.ok.inj (hc.symm.trans hc')
  obtain rfl := Except.ok.inj (ht.symm.trans ht')
  exact hr.symm.trans hr'

/-- Whether `c` is what a concordance file says: its first entry where all of them can be read,
and the empty concordance where they cannot. -/
def SaidBy (t : Tree) (here p : Path) (c : Concordance) : Prop :=
  (∃ all, ReadAs t here p (.ok all) ∧ c = all.headD .empty) ∨
    (∀ all, ¬ ReadAs t here p (.ok all)) ∧ c = .empty

theorem SaidBy.unique {c c' : Concordance} (h : SaidBy t here p c) (h' : SaidBy t here p c') :
    c = c' := by
  obtain ⟨all, hr, rfl⟩ | ⟨hr, rfl⟩ := h <;> obtain ⟨all', hr', rfl⟩ | ⟨hr', rfl⟩ := h'
  · cases hr.unique hr'
    rfl
  · exact absurd hr (hr' all)
  · exact absurd hr' (hr all')
  · rfl

/-- Loading gives the first of the entries, or it fails at a bad entry, or it does not come to the
entries. -/
theorem load_cases (t : Tree) (here p : Path) :
    (∃ all, load t here p = .ok (all.headD .empty) ∧ ReadAs t here p (.ok all)) ∨
      (∃ e, load t here p = .error (.entry e) ∧ ReadAs t here p (.error e)) ∨
      ((load t here p = .ok .empty ∨ ∃ e, load t here p = .error e ∧ ∀ e', e ≠ .entry e') ∧
        ∀ r, ¬ ReadAs t here p r) := by
  rw [load]
  cases hx : t.contains here p with
  | false =>
    refine .inr (.inr ⟨.inl rfl, ?_⟩)
    rintro r ⟨content, text, hc, -, -⟩
    rw [Tree.contains_of_read hc] at hx
    cases hx
  | true =>
    cases hc : t.read here p with
    | error e =>
      refine .inr (.inr ⟨.inr ⟨.file e, rfl, by simp⟩, ?_⟩)
      rintro r ⟨content, text, hc', -, -⟩
      rw [hc] at hc'
      cases hc'
    | ok content =>
      cases ht : utf8 content with
      | error e =>
        refine .inr (.inr ⟨.inr ⟨.encoding e, ?_, by simp⟩, ?_⟩)
        · simp [ht, bind, Except.bind]
        · rintro r ⟨content', text, hc', ht', -⟩
          obtain rfl := Except.ok.inj (hc.symm.trans hc')
          rw [ht] at ht'
          cases ht'
      | ok text =>
        have hr : ReadAs t here p (readAll p.parent (unifyBreaks text)) :=
          ⟨content, text, hc, ht, rfl⟩
        cases ha : readAll p.parent (unifyBreaks text) with
        | ok all =>
          rw [ha] at hr
          refine .inl ⟨all, ?_, hr⟩
          simp [ht, ha, bind, Except.bind, pure, Except.pure]
        | error e =>
          rw [ha] at hr
          refine .inr (.inl ⟨e, ?_, hr⟩)
          simp [ht, ha, bind, Except.bind]

end Concordance

/-! ### Running R -/

/-- A scripted run ends as it is written down, or it does not start. -/
private theorem ScriptedRun.fst_act (here : Path) (r : ScriptedRun) (t : Tree) :
    (r.act here t).1 = r.ending ∨ ∃ reason, (r.act here t).1 = .refused reason := by
  rw [act]
  split
  · exact .inl rfl
  · exact .inr ⟨_, rfl⟩

namespace Weaver

/-- The start of R that weaves a document. -/
def engineStart (engine : WeaveEngine) (rscript : String) (target : Path) : Start :=
  ⟨[rscript, "-e", engine.expression target.name], some target.parent, none⟩

/-- Whether R runs to its end or cannot be started. -/
def NeverBreaks (programs : Programs) : Prop :=
  ∀ starts s t message, (programs.bytes starts s t).1 ≠ .broken message

variable (host : Host) (programs : Programs) (s : Settings) (target : Path) (d : Directives)

/-- Whether weaving, behind `starts` and in the tree `t`, produces the woven document and leaves
the tree `t'`: the engine is known, the R program is located, it starts and ends with the status
zero, and the woven document is there behind it. -/
def Produces (starts : List Start) (t t' : Tree) : Prop :=
  ∃ engine rscript output errors,
    WeaveEngine.ofName? (WeaveEngine.requested d s) = some engine ∧
    host.which t s.rscript = some rscript ∧
    programs.bytes starts (engineStart engine rscript target) t =
      (.exited 0 output errors, t') ∧
    t'.contains host.here (target.sibling ".tex") = true

/-- What weaving gives behind `starts` and in the tree `t`. -/
structure Weaves (starts : List Start) (t : Tree) (r : Except Crash WeaveResult) : Prop where
  /-- It succeeds just if the woven document is produced and no bad entry lacks an offset, and it
  gives what the concordance file says. -/
  woven_iff : ∀ tex c, r = .ok (.woven tex c) ↔ tex = target.sibling ".tex" ∧
    ∃ t', Produces host programs s target d starts t t' ∧
      ¬ Concordance.ReadAs t' host.here (Concordance.fileFor target) (.error .offsetMissing) ∧
      Concordance.SaidBy t' host.here (Concordance.fileFor target) c
  /-- It fails just if the woven document is not produced. -/
  failed_iff : (∃ reason, r = .ok (.failed reason)) ↔
    ∀ t', ¬ Produces host programs s target d starts t t'
  /-- A failure has a reason. -/
  reason_ne : ∀ reason, r = .ok (.failed reason) → reason ≠ ""
  /-- It raises an error just if the woven document is produced and the first bad entry lacks an
  offset. -/
  error_iff : ∀ e, r = .error e ↔ e = .offsetMissing ∧
    ∃ t', Produces host programs s target d starts t t' ∧
      Concordance.ReadAs t' host.here (Concordance.fileFor target) (.error .offsetMissing)

variable {host programs s target d} {starts : List Start} {t t' t'' : Tree}

theorem Produces.unique (h : Produces host programs s target d starts t t')
    (h' : Produces host programs s target d starts t t'') : t' = t'' := by
  obtain ⟨engine, rscript, output, errors, he, hw, hr, -⟩ := h
  obtain ⟨engine', rscript', output', errors', he', hw', hr', -⟩ := h'
  obtain rfl := Option.some.inj (he.symm.trans he')
  obtain rfl := Option.some.inj (hw.symm.trans hw')
  exact congrArg Prod.snd (hr.symm.trans hr')

private theorem weaves_failed {reason : String} (hr : reason ≠ "")
    (hn : ∀ t', ¬ Produces host programs s target d starts t t') :
    Weaves host programs s target d starts t (.ok (.failed reason)) where
  woven_iff tex c := by simp [hn]
  failed_iff := by simp [hn]
  reason_ne := by
    intro reason' h
    cases h
    exact hr
  error_iff e := by simp [hn]

private theorem weaves_woven {c : Concordance} (hp : Produces host programs s target d starts t t')
    (ho : ¬ Concordance.ReadAs t' host.here (Concordance.fileFor target) (.error .offsetMissing))
    (hc : Concordance.SaidBy t' host.here (Concordance.fileFor target) c) :
    Weaves host programs s target d starts t (.ok (.woven (target.sibling ".tex") c)) where
  woven_iff tex c' := by
    constructor
    · rintro ⟨⟩
      exact ⟨rfl, t', hp, ho, hc⟩
    · rintro ⟨rfl, t'', hp', -, hc'⟩
      obtain rfl := hp.unique hp'
      rw [hc.unique hc']
  failed_iff := by
    constructor
    · rintro ⟨reason, ⟨⟩⟩
    · intro hn
      exact absurd hp (hn t')
  reason_ne := by rintro reason ⟨⟩
  error_iff e := by
    constructor
    · rintro ⟨⟩
    · rintro ⟨-, t'', hp', ho'⟩
      obtain rfl := hp.unique hp'
      exact absurd ho' ho

private theorem weaves_error (hp : Produces host programs s target d starts t t')
    (ho : Concordance.ReadAs t' host.here (Concordance.fileFor target) (.error .offsetMissing)) :
    Weaves host programs s target d starts t (.error .offsetMissing) where
  woven_iff tex c := by
    constructor
    · rintro ⟨⟩
    · rintro ⟨-, t'', hp', ho', -⟩
      obtain rfl := hp.unique hp'
      exact absurd ho ho'
  failed_iff := by
    constructor
    · rintro ⟨reason, ⟨⟩⟩
    · intro hn
      exact absurd hp (hn t')
  reason_ne := by rintro reason ⟨⟩
  error_iff e := by
    constructor
    · rintro ⟨⟩
      exact ⟨rfl, t', hp, ho⟩
    · rintro ⟨rfl, -⟩
      rfl

/-! ### The stages of weaving -/

/-- What is given behind an R that ended well depends on what it has left. -/
private theorem leads_collect {engine : WeaveEngine} {rscript : String} {output errors : List UInt8}
    (he : WeaveEngine.ofName? (WeaveEngine.requested d s) = some engine)
    (hw : host.which t s.rscript = some rscript)
    (hr : programs.bytes starts (engineStart engine rscript target) t =
      (.exited 0 output errors, t')) (past : List Note) :
    Leads (collect host.here target).run past t' fun r _ _ =>
      Weaves host programs s target d starts t r := by
  refine leads_lift_bind (leads_tree ?_)
  by_cases hx : t'.contains host.here (target.sibling ".tex") = true
  · simp only [hx, Bool.not_true, Bool.false_eq_true, if_false]
    have hp : Produces host programs s target d starts t t' :=
      ⟨engine, rscript, output, errors, he, hw, hr, hx⟩
    obtain ⟨all, hl, hread⟩ | ⟨e, hl, hread⟩ | ⟨hl, hread⟩ :=
      Concordance.load_cases t' host.here (Concordance.fileFor target)
    · rw [hl]
      refine leads_stage_pure (weaves_woven hp (fun ho => ?_) (.inl ⟨all, hread, rfl⟩))
      cases hread.unique ho
    · have hsaid : Concordance.SaidBy t' host.here (Concordance.fileFor target) .empty := by
        refine .inr ⟨fun all ha => ?_, rfl⟩
        cases hread.unique ha
      rw [hl]
      cases e with
      | offsetMissing => exact leads_throw (weaves_error hp hread)
      | malformed | offsetOnly | unpaired | numeral =>
        refine leads_lift_bind (leads_logWeaving (leads_stage_pure ?_))
        refine weaves_woven hp (fun ho => ?_) hsaid
        cases hread.unique ho
    · have hsaid : Concordance.SaidBy t' host.here (Concordance.fileFor target) .empty :=
        .inr ⟨fun all => hread _, rfl⟩
      obtain hl | ⟨e, hl, hne⟩ := hl
      · rw [hl]
        exact leads_stage_pure (weaves_woven hp (hread _) hsaid)
      · rw [hl]
        cases e with
        | entry e => exact absurd rfl (hne e)
        | file | encoding =>
          refine leads_lift_bind (leads_logWeaving (leads_stage_pure ?_))
          exact weaves_woven hp (hread _) hsaid
  · simp only [hx, Bool.not_false, if_true]
    refine leads_stage_pure (weaves_failed (by simp) ?_)
    rintro t'' ⟨engine', rscript', output', errors', he', hw', hr', hx'⟩
    obtain rfl := Option.some.inj (he.symm.trans he')
    obtain rfl := Option.some.inj (hw.symm.trans hw')
    obtain ⟨-, rfl⟩ := Prod.mk.inj (hr.symm.trans hr')
    exact hx hx'

/-- What is given once the engine and the R program are known depends on how R ends. -/
private theorem leads_runEngine (hb : NeverBreaks programs) {engine : WeaveEngine}
    {rscript : String} (he : WeaveEngine.ofName? (WeaveEngine.requested d s) = some engine)
    (hw : host.which t s.rscript = some rscript) (past : List Note) :
    Leads (runEngine host.here programs (WeaveEngine.requested d s) engine rscript target).run
      past t fun r _ _ => Weaves host programs s target d (startsOf past) t r := by
  refine leads_lift_bind (leads_logWeaving (leads_lift_bind (leads_logWeaving ?_)))
  refine leads_lift_bind (leads_start ?_)
  -- the messages before the start are no starts
  simp only [startsOf_append, startsOf_logged, List.append_nil]
  obtain ⟨ending, t', hr⟩ : ∃ ending t',
      programs.bytes (startsOf past) (engineStart engine rscript target) t = (ending, t') :=
    ⟨_, _, rfl⟩
  have hstart := hr
  rw [engineStart] at hstart
  rw [hstart]
  -- only an R that ends with the status zero produces anything
  have hn (h : ∀ output errors, ending ≠ .exited 0 output errors) :
      ∀ t', ¬ Produces host programs s target d (startsOf past) t t' := by
    rintro t'' ⟨engine', rscript', output, errors, he', hw', hr', -⟩
    obtain rfl := Option.some.inj (he.symm.trans he')
    obtain rfl := Option.some.inj (hw.symm.trans hw')
    exact h output errors (Prod.mk.inj (hr.symm.trans hr')).1
  cases ending with
  | refused reason => exact leads_stage_pure (weaves_failed (by simp) (hn (by simp)))
  | broken message =>
    exact absurd (congrArg Prod.fst hr) (hb _ _ _ message)
  | exited status output errors =>
    by_cases hs : status = 0
    · subst hs
      exact leads_collect he hw hr _
    · simp only [if_neg hs]
      refine leads_lift_bind (leads_logWeaving ?_)
      split
      · next hreason => exact leads_stage_pure (weaves_failed hreason (hn (by simp [hs])))
      · exact leads_stage_pure (weaves_failed (by simp) (hn (by simp [hs])))

/-- **What weaving comes to**, where R runs to its end or cannot be started. -/
theorem weaves_viaR (hb : NeverBreaks programs) (past : List Note) (t : Tree) :
    Weaves host programs s target d (startsOf past) t
      ((viaR host programs s target d).run past t).result := by
  change Leads (viaR host programs s target d).run past t fun r _ _ =>
    Weaves host programs s target d (startsOf past) t r
  rw [viaR]
  cases he : WeaveEngine.ofName? (WeaveEngine.requested d s) with
  | none =>
    refine leads_stage_pure (weaves_failed (by simp) ?_)
    rintro t' ⟨engine, rscript, output, errors, he', -⟩
    rw [he] at he'
    cases he'
  | some engine =>
    refine leads_lift_bind (leads_tree ?_)
    cases hw : host.which t s.rscript with
    | none =>
      refine leads_stage_pure (weaves_failed (by simp) ?_)
      rintro t' ⟨engine', rscript, output, errors, -, hw', -⟩
      rw [hw] at hw'
      cases hw'
    | some rscript =>
      simp only [List.append_nil]
      exact leads_runEngine hb he hw past

/-! ### An R that writes a concordance -/

/-- A host with the current directory at the root. -/
def atRoot : Host := { here := Path.ofString "/" }

/-- A tree with an R program in it. -/
def equipped : Tree :=
  ((∅ : Tree).install atRoot.here (Path.ofString "/R")).toOption.getD ∅

/-- What a run of R does that weaves the document `notes.Rnw` and writes a concordance for it. -/
def weavingRun (concordance : String) : ScriptedRun where
  written := [(Path.ofString "notes.tex", some []),
    (Path.ofString "notes-concordance.tex", some (utf8Encode concordance))]

/-- An R that always runs like this. -/
def weaving (concordance : String) : Programs where
  bytes _ s t := (weavingRun concordance).act (atRoot.here.join (s.directory.getD atRoot.here)) t
  text _ _ t := (.exited 0 "" "", t)

private theorem neverBreaks_weaving (concordance : String) : NeverBreaks (weaving concordance) := by
  intro starts s t message h
  obtain he | ⟨reason, he⟩ := (weavingRun concordance).fst_act
    (atRoot.here.join (s.directory.getD atRoot.here)) t
  · cases he.symm.trans h
  · cases he.symm.trans h

/-- The source lines that a weave comes with, if it succeeds. -/
def linesOf? : Except Crash WeaveResult → Option (List Int)
  | .ok (.woven _ c) => some c.lines
  | _ => none

/-- A weave that succeeds comes with what the concordance file says. -/
theorem weaves_viaR_weaving :
    let programs := weaving "\\Sconcordance\x7bconcordance:notes.tex:notes.Rnw:1 2 1\x7d"
    let s : Settings := { rscript := "/R" }
    let target := Path.ofString "/notes.Rnw"
    NeverBreaks programs ∧ ∃ c t', c.lines = [1, 2, 3] ∧
      Produces atRoot programs s target {} [] equipped t' ∧
      Concordance.SaidBy t' atRoot.here (Concordance.fileFor target) c := by
  intro programs s target
  have hb : NeverBreaks programs := neverBreaks_weaving _
  have hw : linesOf? ((viaR atRoot programs s target {}).run [] equipped).result =
      some [1, 2, 3] := by
    decide +kernel
  cases hr : ((viaR atRoot programs s target {}).run [] equipped).result with
  | error e =>
    rw [hr] at hw
    cases hw
  | ok r =>
    rw [hr] at hw
    cases r with
    | failed reason => cases hw
    | woven tex c =>
      obtain ⟨-, t', hp, -, hc⟩ := ((weaves_viaR hb [] equipped).woven_iff tex c).mp hr
      exact ⟨hb, c, t', Option.some.inj hw, hp, hc⟩

/-- **A bad offset costs a successful weave**: the woven document is produced, yet weaving raises
an error. -/
theorem viaR_of_bareOffset :
    let programs := weaving "\\Sconcordance\x7bconcordance:notes.tex:notes.Rnw:ofs:1 2 1\x7d"
    let s : Settings := { rscript := "/R" }
    let target := Path.ofString "/notes.Rnw"
    NeverBreaks programs ∧ (∃ t', Produces atRoot programs s target {} [] equipped t') ∧
      ((viaR atRoot programs s target {}).run [] equipped).result = .error .offsetMissing := by
  intro programs s target
  let t' := (programs.bytes [] (engineStart .sweave "/R" target) equipped).2
  refine ⟨neverBreaks_weaving _, ⟨t', .sweave, "/R", [], [], ?_, ?_, ?_, ?_⟩, ?_⟩
  · decide +kernel
  · decide +kernel
  · exact Prod.ext (by decide +kernel) rfl
  · decide +kernel
  · have he : (match ((viaR atRoot programs s target {}).run [] equipped).result with
        | .error e => decide (e = .offsetMissing)
        | .ok _ => false) = true := by
      decide +kernel
    cases hr : ((viaR atRoot programs s target {}).run [] equipped).result with
    | ok r =>
      rw [hr] at he
      cases he
    | error e =>
      rw [hr] at he
      rw [of_decide_eq_true he]

end Weaver

end Galley
