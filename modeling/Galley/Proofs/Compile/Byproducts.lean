import Galley.Proofs.Cleanup
import Galley.Proofs.Compile.Attempt

/-!
# Byproducts of a compilation

Whatever its collaborators do, a run that ends leaves the tree as the attempt left it, less the
byproducts that are due: `tree_of_run`. Whether the logs go is decided all over an
attempt, in `Compilation.diagnose` and in `Compilation.fail`; at its end the decision is a
function of what the run tells and of its outcome.
-/

namespace Galley

namespace Compilation

variable {c : Compilation}

/-- What the byproducts of the document are named after: its path without the suffix. -/
def byproductBase (c : Compilation) : Path := c.here.join (c.target.parent.child c.target.stem)

variable {t : Tree} {o : Outcome} {es : List Event} {typesetting : Bool}
  {result? : Option ToolOutput}

/-- Typesetting was reached just if the story tells so. -/
theorem Course.typesetting_iff {r : Except Stop Outcome}
    (h : c.Course t r es typesetting result?) :
    typesetting = true ↔ .entered .typesetting ∈ es := by
  cases h with
  | validating hv => cases hv <;> simp
  | weaving hv hw => cases hv; cases hw <;> simp
  | probing | driving | reporting => simp

theorem Ending.typesetting_iff (h : c.Ending t o es typesetting result?) :
    typesetting = true ↔ .entered .typesetting ∈ es := by
  cases h with
  | reported h => exact h.typesetting_iff
  | stopped h => simp [h.typesetting_iff, stopStory]

/-- The cleanup at the end of an attempt: it knows the document if that was validated. -/
private theorem base_cleanupAfter {base : Path} :
    (c.cleanupAfter { tree := t }).base = some base ↔
      (c.settings.cleanOutput = true ∧ c.Accepts t) ∧ base = c.byproductBase := by
  rw [cleanupAfter]
  split
  · next h => simp [h, Cleanup.start, byproductBase, eq_comm]
  · next h => simp [h]

private theorem keepsLogs_cleanupAfter : (c.cleanupAfter { tree := t }).keepsLogs = false := by
  rw [cleanupAfter]
  split <;> rfl

/-- The tree that the attempt of a run leaves, which the run enters its last phase with. -/
def treeLeft (c : Compilation) (past : List Event) (t : Tree) : Tree :=
  (c.carryOut past { tree := t }).state.tree

private theorem state_cleaner (cleanup : Cleanup) (past : List Note) :
    ((Cleanup.cleaner c.here cleanup).run past t).state = (cleanup.run c.here past t).state := by
  simp only [Cleanup.cleaner, Work.run_bind_apply, Work.run_liftM_apply, Work.run_pure_apply]

/-- The tree of a run is what its attempt left, less the byproducts that are due. -/
theorem run_less (hc : c.cleaner = Cleanup.cleaner c.here) (past : List Event) (t : Tree) :
    (c.treeLeft past t).Less (c.run past { tree := t }).state.tree fun q =>
      (c.settings.cleanOutput = true ∧ c.Accepts t) ∧ ∃ suffix,
        Cleanup.Goes (Cleanup.HasSource (c.treeLeft past t) c.here c.byproductBase)
          (.entered .typesetting ∈ (c.run past { tree := t }).events ∧
            (c.carryOut past { tree := t }).result.kind ≠ .success)
          suffix ∧
        Cleanup.IsByproduct (c.treeLeft past t) c.here c.byproductBase suffix q := by
  obtain ⟨-, hs, past', ht⟩ := run_eq_some (c := c) (a := { tree := t }) rfl past
  obtain ⟨he, hcl⟩ := meets_carryOut (c := c) (t := t) past
  rw [ht, hc, state_cleaner]
  refine (Cleanup.run_less past').congr fun q => ?_
  have hbase : ∀ base, (c.carryOut past { tree := t }).state.cleanup.base = some base ↔
      (c.settings.cleanOutput = true ∧ c.Accepts t) ∧ base = c.byproductBase := by
    intro base
    rw [hcl, ← base_cleanupAfter]
    split <;> rfl
  have hkept : (c.carryOut past { tree := t }).state.cleanup.keepsLogs = true ↔
      .entered .typesetting ∈ (c.run past { tree := t }).events ∧
        (c.carryOut past { tree := t }).result.kind ≠ .success := by
    -- the phases are part of the story, and the last phase is not typesetting
    have hmem : .entered .typesetting ∈ (c.run past { tree := t }).events ↔
        (c.carryOut past { tree := t }).state.typesetting = true := by
      have htold := mem_story (.entered .typesetting) (c.run past { tree := t }).events
      simp only [Event.note?, and_true] at htold
      rw [← htold, hs, he.typesetting_iff]
      simp
    rw [hmem, hcl]
    split
    · next h => simp only [h, Cleanup.keepLogs, ne_eq, not_false_eq_true, and_self]
    · next h => simp only [keepsLogs_cleanupAfter, h, Bool.false_eq_true]
  simp only [hbase, hkept, treeLeft]
  constructor
  · rintro ⟨base, ⟨hv, rfl⟩, h⟩
    exact ⟨hv, h⟩
  · rintro ⟨hv, h⟩
    exact ⟨_, ⟨hv, rfl⟩, h⟩

/-- **The byproduct policy**: whatever the collaborators do, a run has an outcome, and its tree is
the tree that the attempt left less the regular files that are byproducts due for removal. There
are none to remove unless the output is to be cleaned and the document was validated. The logs
stay just if typesetting was reached and the run is no success. -/
theorem tree_of_run (hc : c.cleaner = Cleanup.cleaner c.here) (past : List Event) (t : Tree) :
    ∃ o, (c.run past { tree := t }).result = some o ∧
      (c.treeLeft past t).Less (c.run past { tree := t }).state.tree fun q =>
        (c.settings.cleanOutput = true ∧ c.Accepts t) ∧ ∃ suffix,
          Cleanup.Goes (Cleanup.HasSource (c.treeLeft past t) c.here c.byproductBase)
            (.entered .typesetting ∈ (c.run past { tree := t }).events ∧ o.kind ≠ .success)
            suffix ∧
          Cleanup.IsByproduct (c.treeLeft past t) c.here c.byproductBase suffix q :=
  ⟨_, (run_eq_some rfl past).1, run_less hc past t⟩

/-- The suffixes under which something stands where the thesis is. -/
def suffixesIn (t : Tree) : List String :=
  [".Rnw", ".aux", ".bbl", ".bib", ".log", ".tex"].filter fun suffix =>
    (t.node? ["r" ++ suffix]).isSome

/-- A byproduct of the thesis stands next to it under its suffix. -/
private theorem isByproduct_ofThesis {status : Int} {bibliography kept : Prop} {suffix : String}
    (h : Cleanup.Goes bibliography kept suffix) {t : Tree} {q : Place} :
    Cleanup.IsByproduct t (ofThesis status).here (ofThesis status).byproductBase suffix q ↔
      q = ["r" ++ suffix] ∧ t.IsFile q := by
  have hbase : (ofThesis status).byproductBase = Path.ofString "/r" := by
    change rootHost.here.join
      ((rootHost.here.resolveIn "r.tex").parent.child (rootHost.here.resolveIn "r.tex").stem) = _
    decide +kernel
  have hp : Cleanup.byproduct? (Path.ofString "/r") suffix = some (Path.ofString ("/r" ++ suffix)) ∧
      t.place rootHost.here (Path.ofString ("/r" ++ suffix)) = .ok ["r" ++ suffix] := by
    cases h <;> exact ⟨by decide +kernel, by rfl⟩
  rw [hbase, Cleanup.IsByproduct, hp.1]
  change (∃ p, some _ = some p ∧ t.place rootHost.here p = .ok q ∧ t.IsFile q) ↔ _
  simp only [Option.some.injEq, exists_eq_left', hp.2, Except.ok.injEq]
  exact and_congr_left' eq_comm

/-- What the byproduct policy comes to next to the thesis. -/
private theorem suffixesIn_of_less {status : Int} {kept : Prop} {t u : Tree} (keepsLogs : Bool)
    (h : t.Less u fun q =>
      ((ofThesis status).settings.cleanOutput = true ∧ (ofThesis status).Accepts thesis) ∧
        ∃ suffix, Cleanup.Goes
          (Cleanup.HasSource t (ofThesis status).here (ofThesis status).byproductBase) kept suffix ∧
          Cleanup.IsByproduct t (ofThesis status).here (ofThesis status).byproductBase suffix q)
    (ha : (ofThesis status).Accepts thesis) (hk : kept ↔ keepsLogs = true)
    (hd : ∀ suffix ∈ suffixesIn t, t.node? ["r" ++ suffix] ≠ some .directory) :
    suffixesIn u = (suffixesIn t).filter fun suffix =>
      suffix ∉ Cleanup.dueSuffixes { keepsLogs } t (ofThesis status).here
        (ofThesis status).byproductBase := by
  have hless : t.Less u fun q => t.IsFile q ∧
      ∃ suffix ∈ Cleanup.dueSuffixes { keepsLogs } t (ofThesis status).here
        (ofThesis status).byproductBase, q = ["r" ++ suffix] := by
    refine h.congr fun q => ?_
    simp only [Cleanup.mem_dueSuffixes, ← hk]
    constructor
    · rintro ⟨-, suffix, hs, hb⟩
      obtain ⟨hq, hf⟩ := (isByproduct_ofThesis hs).mp hb
      exact ⟨hf, suffix, hs, hq⟩
    · rintro ⟨hf, suffix, hs, hq⟩
      exact ⟨⟨rfl, ha⟩, suffix, hs, (isByproduct_ofThesis hs).mpr ⟨hq, hf⟩⟩
  generalize Cleanup.dueSuffixes { keepsLogs } t (ofThesis status).here
    (ofThesis status).byproductBase = due at hless
  rw [suffixesIn, suffixesIn, List.filter_filter]
  refine List.filter_congr fun suffix hm => ?_
  obtain ⟨hgone, hstays⟩ := hless ["r" ++ suffix]
  simp only [List.cons.injEq, String.append_right_inj, and_true, exists_eq_right'] at hgone hstays
  cases ht : t.node? ["r" ++ suffix] with
  | none =>
    have hf : ¬ t.IsFile ["r" ++ suffix] := by simp [Tree.IsFile, ht]
    simp [hstays fun hq => hf hq.1, ht]
  | some node =>
    have hf : t.IsFile ["r" ++ suffix] := Tree.isFile_of_node? (by simp [ht])
      (hd suffix (List.mem_filter.mpr ⟨hm, by simp [ht]⟩))
    by_cases hs : suffix ∈ due
    · simp [hgone ⟨hf, hs⟩, hs]
    · simp [hstays fun hq => hs hq.2, ht, hs]

/-- The thesis is typeset and cleaned up after: its bibliography can be made again and goes, and the
log stays just if the TeX program fails. -/
theorem tree_of_run_ofThesis :
    ((ofThesis 0).cleaner = Cleanup.cleaner (ofThesis 0).here ∧
      suffixesIn ((ofThesis 0).treeLeft [] thesis) =
        [".Rnw", ".aux", ".bbl", ".bib", ".log", ".tex"] ∧
      suffixesIn ((ofThesis 0).run [] { tree := thesis }).state.tree = [".Rnw", ".bib", ".tex"]) ∧
    ((ofThesis 1).cleaner = Cleanup.cleaner (ofThesis 1).here ∧
      suffixesIn ((ofThesis 1).treeLeft [] thesis) =
        [".Rnw", ".aux", ".bbl", ".bib", ".log", ".tex"] ∧
      suffixesIn ((ofThesis 1).run [] { tree := thesis }).state.tree =
        [".Rnw", ".bib", ".log", ".tex"]) := by
  constructor
  · refine ⟨rfl, by decide +kernel, ?_⟩
    obtain ⟨o, ho, hless⟩ := tree_of_run (c := ofThesis 0) rfl [] thesis
    have hkind : ((ofThesis 0).run [] { tree := thesis }).result.map (·.kind) = some .success := by
      decide +kernel
    rw [ho, Option.map_some, Option.some.injEq] at hkind
    rw [suffixesIn_of_less false hless (by decide +kernel) (by simp [hkind]) (by decide +kernel)]
    decide +kernel
  · refine ⟨rfl, by decide +kernel, ?_⟩
    obtain ⟨o, ho, hless⟩ := tree_of_run (c := ofThesis 1) rfl [] thesis
    have hkind : ((ofThesis 1).run [] { tree := thesis }).result.map (·.kind) =
        some .diagnosticsAvailable := by
      decide +kernel
    rw [ho, Option.map_some, Option.some.injEq] at hkind
    have hphase : .typesetting ∈
        ((ofThesis 1).run [] { tree := thesis }).events.filterMap Event.phase? := by
      decide +kernel
    rw [suffixesIn_of_less true hless (by decide +kernel)
      (by simp [hkind, mem_of_mem_phases hphase]) (by decide +kernel)]
    decide +kernel

end Compilation

end Galley
