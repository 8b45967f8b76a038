import Galley.Program.Script
import Galley.Proofs.Toolchain.Schedule

/-!
# When the emulated driver succeeds

The status that the emulated driver ends with is written anew behind every step, and warnings of
BibTeX are wiped from it. `status_eq_zero_iff` is the main result: in the end it is zero just if
every program that was started ended as it may, whatever the tree, the tools that are located and
the programs themselves are like.

BibTeX may end with any status below two. That takes in the negative status of a BibTeX that a
signal has killed, which is thereby taken for a warning: `status_of_killed_bibtex`.
-/

namespace Galley.Toolchain.Emulation

open Text Work

variable {e : Emulation} {tex : Path} {o : TexOptions}

/-- How a start of the driver may end: BibTeX with a status below two, any other program with the
status zero. -/
inductive Tolerated (tex : Path) (o : TexOptions) : Start → Option Int → Prop
  | pass : Tolerated tex o (passStart tex o) (some 0)
  | bibtex {status : Int} (h : status < 2) : Tolerated tex o (bibtexStart tex) (some status)
  | makeindex : Tolerated tex o (makeindexStart tex) (some 0)

/-- Whether every start that the notes tell of ended as it may. -/
def AllTolerated (tex : Path) (o : TexOptions) (notes : List Note) : Prop :=
  ∀ s t status, .started s t status ∈ notes → Tolerated tex o s status

@[simp]
theorem allTolerated_nil : AllTolerated tex o [] := by simp [AllTolerated]

@[simp]
theorem allTolerated_append {xs ys : List Note} :
    AllTolerated tex o (xs ++ ys) ↔ AllTolerated tex o xs ∧ AllTolerated tex o ys := by
  simp only [AllTolerated, List.mem_append, or_imp, forall_and]

private theorem allTolerated_started {m : Message} {s : Start} {t : Tree} {status : Option Int} :
    AllTolerated tex o [.logged m, .started s t status] ↔ Tolerated tex o s status := by
  simp only [AllTolerated, List.mem_cons, List.not_mem_nil, or_false, reduceCtorEq, false_or,
    Note.started.injEq]
  constructor
  · intro h
    exact h s t status ⟨rfl, rfl, rfl⟩
  · rintro h s' t' status' ⟨rfl, rfl, rfl⟩
    exact h

/-! ### The starts are told apart -/

private theorem passStart_ne_bibtexStart : passStart tex o ≠ bibtexStart tex := by
  simp [passStart, bibtexStart, TexOptions.arguments]

private theorem bibtexStart_ne_makeindexStart : bibtexStart tex ≠ makeindexStart tex := by
  simp [bibtexStart, makeindexStart]

private theorem tolerated_passStart_iff {status : Int} :
    Tolerated tex o (passStart tex o) (some status) ↔ status = 0 := by
  refine ⟨fun h => ?_, fun h => h ▸ .pass⟩
  generalize hs : passStart tex o = s at h
  cases h with
  | pass => rfl
  | bibtex => exact absurd hs passStart_ne_bibtexStart
  | makeindex => rfl

private theorem tolerated_makeindexStart_iff {status : Int} :
    Tolerated tex o (makeindexStart tex) (some status) ↔ status = 0 := by
  refine ⟨fun h => ?_, fun h => h ▸ .makeindex⟩
  generalize hs : makeindexStart tex = s at h
  cases h with
  | pass => rfl
  | bibtex => exact absurd hs.symm bibtexStart_ne_makeindexStart
  | makeindex => rfl

private theorem tolerated_bibtexStart_iff {status : Int} :
    Tolerated tex o (bibtexStart tex) (some status) ↔ status < 2 := by
  refine ⟨fun h => ?_, .bibtex⟩
  generalize hs : bibtexStart tex = s at h
  cases h with
  | pass => exact absurd hs.symm passStart_ne_bibtexStart
  | bibtex h => exact h
  | makeindex => exact absurd hs bibtexStart_ne_makeindexStart

/-! ### Steps -/

/-- The status of a step is judged by the starts in it: it is zero just if they ended as they
may. Nothing is said of a step without a result. -/
def Judged (tex : Path) (o : TexOptions) (r : Except DriverError ToolOutput) (notes : List Note) :
    Prop :=
  ∀ out, r = .ok out → (out.status = 0 ↔ AllTolerated tex o notes)

private theorem judged_error {stop : DriverError} {notes : List Note} :
    Judged tex o (.error stop) notes := by
  rintro out ⟨⟩

private theorem judged_nil {out : ToolOutput} (h : out.status = 0) : Judged tex o (.ok out) [] := by
  intro out' ho
  cases ho
  simp [h]

/-- A step that is its last start. -/
private theorem judged_started {out : ToolOutput} {m : Message} {s : Start} {t : Tree}
    {status : Option Int} (h : Tolerated tex o s status ↔ out.status = 0) :
    Judged tex o (.ok out) ([.logged m, .started s t status] ++ []) := by
  intro out' ho
  cases ho
  rw [List.append_nil, allTolerated_started, h]

/-- Starts that ended as they may are left to what comes behind them. -/
private theorem Judged.behind {r : Except DriverError ToolOutput} {notes before : List Note}
    (h : Judged tex o r notes) (hb : AllTolerated tex o before) :
    Judged tex o r (before ++ notes) := by
  intro out ho
  rw [allTolerated_append, and_iff_right hb, h out ho]

/-- Messages are no starts. -/
private theorem Judged.behind_message {r : Except DriverError ToolOutput} {notes : List Note}
    {m : Message} (h : Judged tex o r notes) : Judged tex o r ([.logged m] ++ notes) :=
  h.behind (by simp [AllTolerated])

variable {past : List Note} {t : Tree}

/-- A program that gives a result was started once, and its status is that of the result. -/
private theorem leads_runProgram {programs : Programs} {s : Start}
    {Q : Except DriverError ToolOutput → List Note → Tree → Prop}
    (ok : ∀ out m t', Q (.ok out) [.logged m, .started s t (some out.status)] t')
    (error : ∀ stop notes t', Q (.error stop) notes t') :
    Leads (runProgram programs s).run past t Q := by
  refine leads_lift_bind (leads_log (leads_lift_bind (leads_start ?_)))
  cases (programs.text (startsOf (past ++ _)) s t).1 with
  | exited status output errors => exact leads_stage_pure (ok ⟨status, _, _, _⟩ _ _)
  | refused reason | broken message => exact leads_throw (error _ _ _)

/-! ### What starts nothing -/

private theorem leads_readText {p : Path} :
    Leads (e.readText p).run past t fun _ notes _ => notes = [] := by
  refine leads_lift_bind (leads_tree ?_)
  cases t.read e.here p with
  | ok content => exact leads_stage_pure rfl
  | error stop => exact leads_throw rfl

theorem leads_needsBibtex {aux : Path} :
    Leads (e.needsBibtex aux).run past t fun _ notes _ => notes = [] := by
  refine leads_lift_bind (leads_tree ?_)
  split
  · refine leads_stage_bind (leads_readText.imp ?_)
    rintro (stop | text) notes t' rfl
    · rfl
    · exact leads_stage_pure rfl
  · exact leads_stage_pure rfl

theorem leads_needsMakeindex {idx : Path} :
    Leads (e.needsMakeindex idx).run past t fun _ notes _ => notes = [] :=
  leads_lift_bind (leads_tree (leads_stage_pure rfl))

theorem leads_needsRerun {log : Path} :
    Leads (e.needsRerun log).run past t fun _ notes _ => notes = [] := by
  refine leads_lift_bind (leads_tree ?_)
  split
  · refine leads_stage_bind (leads_readText.imp ?_)
    rintro (stop | text) notes t' rfl
    · rfl
    · exact leads_stage_pure rfl
  · exact leads_stage_pure rfl

/-! ### Passes -/

/-- **Further passes** behind a status of zero: all of them end with zero but the last one, whose
status is that of the whole. -/
theorem leads_furtherPasses {log : Path} {allowed pending : Nat} {combined : ToolOutput × Nat}
    (hs : combined.1.status = 0) :
    Leads (e.furtherPasses (runProgram e.programs (passStart tex o)) log allowed pending
      combined).run past t fun r notes _ => Judged tex o (r.map Prod.fst) notes := by
  -- the induction is on the passes that are still allowed
  induction allowed generalizing past t pending combined with
  | zero => exact leads_stage_pure (judged_nil hs)
  | succ allowed ih =>
    obtain ⟨combined, passes⟩ := combined
    have again : ∀ past t, Leads (do
          let combined := combined.extend (← runProgram e.programs (passStart tex o))
          if combined.status ≠ 0 then return (combined, passes + 1)
          e.furtherPasses (runProgram e.programs (passStart tex o)) log allowed (pending - 1)
            (combined, passes + 1) : ToolWork (ToolOutput × Nat)).run past t
        fun r notes _ => Judged tex o (r.map Prod.fst) notes := by
      intro past t
      refine leads_stage_bind (leads_runProgram (fun result m t' => ?_) fun _ _ _ => judged_error)
      by_cases hf : (combined.extend result).status ≠ 0
      · simp only [if_pos hf]
        exact leads_stage_pure (judged_started tolerated_passStart_iff)
      · simp only [if_neg hf]
        rw [ne_eq, not_not] at hf
        refine (ih hf).imp fun r notes _ hr => hr.behind ?_
        exact allTolerated_started.mpr (tolerated_passStart_iff.mpr hf)
    rw [furtherPasses]
    split
    · refine leads_stage_bind (leads_needsRerun.imp ?_)
      rintro (stop | needed) notes t' rfl
      · exact judged_error
      · cases needed with
        | true => exact again _ t'
        | false => exact leads_stage_pure (judged_nil hs)
    · exact again _ t

private theorem leads_settle {pending : Nat} {combined : ToolOutput} (hs : combined.status = 0) :
    Leads (e.settle tex (runProgram e.programs (passStart tex o)) pending combined).run past t
      fun r notes _ => Judged tex o r notes := by
  refine leads_stage_bind ((leads_furtherPasses hs).imp ?_)
  rintro (stop | ⟨result, passes⟩) notes t' hr
  · exact judged_error
  · refine leads_lift_bind (leads_log (leads_stage_pure ?_))
    intro out ho
    cases ho
    rw [hr result rfl, allTolerated_append, iff_self_and, List.append_nil]
    simp [AllTolerated]

/-! ### The whole -/

private theorem leads_indexAndSettle {pending : Nat} {combined : ToolOutput}
    (hs : combined.status = 0) :
    Leads (e.indexAndSettle tex (runProgram e.programs (passStart tex o)) pending combined).run
      past t fun r notes _ => Judged tex o r notes := by
  refine leads_stage_bind (leads_needsMakeindex.imp ?_)
  rintro (stop | needed) notes t' rfl
  · exact judged_error
  cases needed with
  | false => exact leads_settle hs
  | true =>
    refine leads_stage_bind (leads_runProgram (fun result m t' => ?_) fun _ _ _ => judged_error)
    by_cases hf : (combined.extend result).status ≠ 0
    · simp only [if_pos hf]
      exact leads_stage_pure (judged_started tolerated_makeindexStart_iff)
    · simp only [if_neg hf]
      rw [ne_eq, not_not] at hf
      refine (leads_settle hf).imp fun r notes _ hr => hr.behind ?_
      exact allTolerated_started.mpr (tolerated_makeindexStart_iff.mpr hf)

private theorem leads_compile :
    Leads (e.compile tex o).run past t fun r notes _ => Judged tex o r notes := by
  refine leads_lift_bind (leads_log (leads_stage_bind ?_))
  refine leads_runProgram (fun first m t' => ?_) fun _ _ _ => judged_error
  by_cases hf : first.status ≠ 0
  · simp only [if_pos hf]
    exact leads_stage_pure (judged_started tolerated_passStart_iff).behind_message
  simp only [if_neg hf]
  rw [ne_eq, not_not] at hf
  have hpass : AllTolerated tex o [.logged m, .started (passStart tex o) t (some first.status)] :=
    allTolerated_started.mpr (tolerated_passStart_iff.mpr hf)
  refine leads_stage_bind (leads_needsBibtex.imp ?_)
  rintro (stop | needed) notes t'' rfl
  · exact judged_error
  cases needed with
  | false =>
    exact (leads_indexAndSettle hf).imp fun r notes _ hr => (hr.behind hpass).behind_message
  | true =>
    refine leads_stage_bind (leads_runProgram (fun result m' t' => ?_) fun _ _ _ => judged_error)
    have hstatus : (first.extend result).status = result.status := rfl
    by_cases hs : bibtexErrorStatus ≤ (first.extend result).status
    · simp only [if_pos hs]
      have hstop : Tolerated tex o (bibtexStart tex) (some result.status) ↔
          (first.extend result).status = 0 := by
        rw [tolerated_bibtexStart_iff, hstatus]
        rw [hstatus, bibtexErrorStatus] at hs
        omega
      exact leads_stage_pure (((judged_started hstop).behind hpass).behind_message)
    · simp only [if_neg hs]
      have hbibtex : AllTolerated tex o
          [.logged m', .started (bibtexStart tex) t'' (some result.status)] :=
        allTolerated_started.mpr (tolerated_bibtexStart_iff.mpr (Int.not_le.mp hs))
      have behind : ∀ past t, Leads (e.indexAndSettle tex (runProgram e.programs (passStart tex o))
            passesAfterBibtex { first.extend result with status := 0 }).run past t
          fun r notes _ => Judged tex o r notes :=
        fun past t => leads_indexAndSettle rfl
      -- a warning of BibTeX is logged, and its status is forgotten
      by_cases hw : (first.extend result).status ≠ 0
      · simp only [if_pos hw]
        refine leads_lift_bind (leads_log ((behind _ t').imp fun r notes _ hr => ?_))
        exact ((hr.behind_message.behind hbibtex).behind hpass).behind_message
      · simp only [if_neg hw]
        refine (behind _ t').imp fun r notes _ hr => ?_
        exact ((hr.behind hbibtex).behind hpass).behind_message

/-- **The emulated driver succeeds just if every program ended as it may**: the TeX program and
MakeIndex with zero, BibTeX with a status below two. -/
theorem status_eq_zero_iff (past : List Note) {t : Tree} {out : ToolOutput}
    (h : ((e.compile tex o).run past t).result = .ok out) :
    out.status = 0 ↔ ∀ s t' status, .started s t' status ∈ ((e.compile tex o).run past t).events →
      Tolerated tex o s status :=
  leads_compile out h

/-- A driver on a document with citations, whose BibTeX is killed by the signal 9. -/
def interrupted : Emulation where
  here := Path.ofString "/"
  programs := Script.programs
    ⟨[("pdflatex", [{ written := [(Path.ofString "doc.aux", some (utf8Encode "\\bibdata"))] }]),
      ("bibtex", [{ ending := .exited (-9) [] [] }])]⟩ (Path.ofString "/")
  which _ name := some name
  maxPasses := 10

/-- A driver that succeeds had no program that failed, by the measure of the driver. -/
theorem status_eq_zero_iff_interrupted :
    let tex := Path.ofString "/doc.tex"
    let o : TexOptions := { program := Path.ofString "/pdflatex" }
    let done := (interrupted.compile tex o).run [] ∅
    ∃ out, done.result = .ok out ∧
      ∀ s t status, .started s t status ∈ done.events → Tolerated tex o s status := by
  intro tex o done
  have hs : done.result.toOption.map (·.status) = some 0 := by decide +kernel
  cases hr : done.result with
  | error stop =>
    rw [hr] at hs
    cases hs
  | ok out =>
    rw [hr] at hs
    exact ⟨out, rfl, (status_eq_zero_iff [] hr).mp (Option.some.inj hs)⟩

/-- Whether a note tells of a start that ended with a status. -/
def toldBy (s : Start) (status : Option Int) : Note → Bool
  | .started s' _ status' => decide (s' = s ∧ status' = status)
  | .logged _ => false

/-- **A BibTeX that is killed does not stop the driver**, which succeeds. -/
theorem status_of_killed_bibtex :
    let tex := Path.ofString "/doc.tex"
    let o : TexOptions := { program := Path.ofString "/pdflatex" }
    let done := (interrupted.compile tex o).run [] ∅
    (∃ t, .started (bibtexStart tex) t (some (-9)) ∈ done.events) ∧
      ∃ out, done.result = .ok out ∧ out.status = 0 := by
  intro tex o done
  have hk : done.events.any (toldBy (bibtexStart tex) (some (-9))) = true := by decide +kernel
  have hs : done.result.toOption.map (·.status) = some 0 := by decide +kernel
  constructor
  · obtain ⟨n, hn, hb⟩ := List.any_eq_true.mp hk
    cases n with
    | logged m => cases hb
    | started s t status =>
      obtain ⟨rfl, rfl⟩ := of_decide_eq_true hb
      exact ⟨t, hn⟩
  · cases hr : done.result with
    | error stop =>
      rw [hr] at hs
      cases hs
    | ok out =>
      rw [hr] at hs
      exact ⟨out, rfl, Option.some.inj hs⟩

end Galley.Toolchain.Emulation
