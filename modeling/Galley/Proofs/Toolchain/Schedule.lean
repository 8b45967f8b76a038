import Galley.Program.Script
import Galley.Proofs.Toolchain.World
import Mathlib.Logic.Function.Iterate
import Mathlib.Order.Bounds.Basic

/-!
# The schedule of the emulated driver

`Schedule` says which programs the emulated driver starts for a document, and with which status
it ends: a first pass of the TeX program, BibTeX and MakeIndex where the document needs them, and
further passes until the references have settled. It is told in terms of the worlds that the
programs lead to. `compile_schedule` is the main result: the driver keeps to the schedule as long
as its starts succeed and the files that it consults can be read.

Passes behind the first one are counted from zero, so `n` further passes are `n + 1` passes in
all.
-/

namespace Galley.Toolchain.Emulation

open Text

variable (e : Emulation) (tex : Path) (o : TexOptions)

/-! ### Starts -/

/-- The start of the TeX program. -/
def passStart : Start :=
  ⟨toString o.program :: o.arguments ++ [tex.name], some tex.parent, none⟩

/-- The start of BibTeX. -/
def bibtexStart : Start := ⟨["bibtex", tex.stem], some tex.parent, none⟩

/-- The start of MakeIndex. -/
def makeindexStart : Start := ⟨["makeindex", tex.stem ++ ".idx"], some tex.parent, none⟩

/-! ### What the document needs -/

/-- Whether a file can be read if it is there. -/
def Readable (t : Tree) (p : Path) : Prop :=
  t.contains e.here p = true → ∃ content, t.read e.here p = .ok content

/-- Whether there are citations, and BibTeX is located. -/
def HasCitations (t : Tree) : Prop :=
  (e.which t "bibtex").isSome = true ∧
    ∃ content, t.read e.here (tex.sibling ".aux") = .ok content ∧
      contains "\\bibdata".toList (latin1 content) = true

/-- Whether there is an index, and MakeIndex is located. -/
def HasIndex (t : Tree) : Prop :=
  t.contains e.here (tex.parent.child (tex.stem ++ ".idx")) = true ∧
    (e.which t "makeindex").isSome = true

/-- Whether the log of the last pass asks for another one. -/
def AsksAgain (t : Tree) : Prop :=
  ∃ content, t.read e.here (tex.sibling ".log") = .ok content ∧
    asksForRerun (latin1 content) = true

/-! ### The schedule -/

/-- The bibliography: the starts for it, the further passes that it makes due, and the world
behind it. -/
inductive Citing (w : World) : List Start → Nat → World → Prop
  | skipped (h : ¬ e.HasCitations tex w.tree) : Citing w [] 0 w
  | made (h : e.HasCitations tex w.tree) (hs : w.status e.programs (bibtexStart tex) < 2) :
      Citing w [bibtexStart tex] 2 (w.after e.programs (bibtexStart tex))

/-- The index, with `k` further passes due already. -/
inductive Indexing (w : World) (k : Nat) : List Start → Nat → World → Prop
  | skipped (h : ¬ e.HasIndex tex w.tree) : Indexing w k [] k w
  | made (h : e.HasIndex tex w.tree) (hs : w.status e.programs (makeindexStart tex) = 0) :
      Indexing w k [makeindexStart tex] (max k 1) (w.after e.programs (makeindexStart tex))

/-- The world after `n` further passes. -/
def worldAfter (w : World) (n : Nat) : World := (World.after e.programs · (passStart tex o))^[n] w

/-- The status after `n` further passes: that of the last one, if there is one. -/
def statusAfter (w : World) : Nat → Int
  | 0 => 0
  | n + 1 => (e.worldAfter tex o w n).status e.programs (passStart tex o)

/-- Whether there are enough passes after `n` further ones, of which `k` are due: no more are
allowed, or the last one failed, or none is due and the log does not ask for another. -/
def Enough (w : World) (k n : Nat) : Prop :=
  max 1 e.maxPasses ≤ n + 1 ∨ e.statusAfter tex o w n ≠ 0 ∨
    (k ≤ n ∧ ¬ e.AsksAgain tex (e.worldAfter tex o w n).tree)

/-- The programs that are started in a world, and the status in the end. -/
inductive Schedule (w : World) : List Start → Int → Prop
  | passFails (h : w.status e.programs (passStart tex o) ≠ 0) :
      Schedule w [passStart tex o] (w.status e.programs (passStart tex o))
  | bibtexFails {w₁ : World} (h : w.status e.programs (passStart tex o) = 0)
      (hw : w₁ = w.after e.programs (passStart tex o)) (hb : e.HasCitations tex w₁.tree)
      (hs : 2 ≤ w₁.status e.programs (bibtexStart tex)) :
      Schedule w [passStart tex o, bibtexStart tex] (w₁.status e.programs (bibtexStart tex))
  | makeindexFails {bs : List Start} {k : Nat} {w₂ : World}
      (h : w.status e.programs (passStart tex o) = 0)
      (hb : e.Citing tex (w.after e.programs (passStart tex o)) bs k w₂)
      (hi : e.HasIndex tex w₂.tree) (hs : w₂.status e.programs (makeindexStart tex) ≠ 0) :
      Schedule w (passStart tex o :: (bs ++ [makeindexStart tex]))
        (w₂.status e.programs (makeindexStart tex))
  | settles {bs is : List Start} {k k' n : Nat} {w₂ w₃ : World}
      (h : w.status e.programs (passStart tex o) = 0)
      (hb : e.Citing tex (w.after e.programs (passStart tex o)) bs k w₂)
      (hi : e.Indexing tex w₂ k is k' w₃) (hn : IsLeast {n | e.Enough tex o w₃ k' n} n) :
      Schedule w (passStart tex o :: (bs ++ (is ++ List.replicate n (passStart tex o))))
        (e.statusAfter tex o w₃ n)

/-- Whether the log is looked at after `n` further passes, of which `k` are due. -/
def LogDue (w : World) (k n : Nat) : Prop :=
  k ≤ n ∧ n + 1 < max 1 e.maxPasses ∧ e.statusAfter tex o w n = 0 ∧
    ∀ m < n, ¬ e.Enough tex o w k m

/-- Whether the files that the driver looks at in the course of its schedule can be read. -/
structure Consultable (w : World) : Prop where
  aux (h : w.status e.programs (passStart tex o) = 0)
    (hb : (e.which (w.after e.programs (passStart tex o)).tree "bibtex").isSome = true) :
    e.Readable (w.after e.programs (passStart tex o)).tree (tex.sibling ".aux")
  log {bs is : List Start} {k k' n : Nat} {w₂ w₃ : World}
    (h : w.status e.programs (passStart tex o) = 0)
    (hb : e.Citing tex (w.after e.programs (passStart tex o)) bs k w₂)
    (hi : e.Indexing tex w₂ k is k' w₃) (hn : e.LogDue tex o w₃ k' n) :
    e.Readable (e.worldAfter tex o w₃ n).tree (tex.sibling ".log")

variable {e tex o} {w : World}

/-! ### Looking at files -/

private theorem gives_readText {p : Path} {content : List UInt8}
    (h : w.tree.read e.here p = .ok content)
    {Q : List Char → List Start → World → Prop} (hQ : Q (latin1 content) [] w) :
    Gives (e.readText p) w Q := by
  refine gives_bind (gives_tree ?_)
  rw [h]
  exact gives_pure hQ

private theorem gives_needsBibtex
    (hr : (e.which w.tree "bibtex").isSome = true → e.Readable w.tree (tex.sibling ".aux"))
    {Q : Bool → List Start → World → Prop}
    (hQ : ∀ needed : Bool, (needed = true ↔ e.HasCitations tex w.tree) → Q needed [] w) :
    Gives (e.needsBibtex (tex.sibling ".aux")) w Q := by
  refine gives_bind (gives_tree ?_)
  split
  · next h =>
    rw [Bool.and_eq_true] at h
    obtain ⟨content, hc⟩ := hr h.2 h.1
    refine gives_bind (gives_readText hc (gives_pure (hQ _ ?_)))
    simp [HasCitations, h.2, hc]
  · next h =>
    refine gives_pure (hQ false ⟨by simp, ?_⟩)
    rintro ⟨hb, content, hc, -⟩
    exact absurd (by simp [Tree.contains_of_read hc, hb]) h

private theorem gives_needsMakeindex {Q : Bool → List Start → World → Prop}
    (hQ : ∀ needed : Bool, (needed = true ↔ e.HasIndex tex w.tree) → Q needed [] w) :
    Gives (e.needsMakeindex (tex.parent.child (tex.stem ++ ".idx"))) w Q := by
  refine gives_bind (gives_tree (gives_pure (hQ _ ?_)))
  rw [Bool.and_eq_true, HasIndex]

private theorem gives_needsRerun (hr : e.Readable w.tree (tex.sibling ".log"))
    {Q : Bool → List Start → World → Prop}
    (hQ : ∀ needed : Bool, (needed = true ↔ e.AsksAgain tex w.tree) → Q needed [] w) :
    Gives (e.needsRerun (tex.sibling ".log")) w Q := by
  refine gives_bind (gives_tree ?_)
  split
  · next h =>
    obtain ⟨content, hc⟩ := hr h
    refine gives_bind (gives_readText hc (gives_pure (hQ _ ?_)))
    simp [AsksAgain, hc]
  · next h =>
    refine gives_pure (hQ false ⟨by simp, ?_⟩)
    rintro ⟨content, hc, -⟩
    exact absurd (Tree.contains_of_read hc) h

/-! ### Passes -/

private theorem worldAfter_succ (n : Nat) : e.worldAfter tex o w (n + 1) =
    (e.worldAfter tex o w n).after e.programs (passStart tex o) :=
  Function.iterate_succ_apply' ..

private theorem isLeast_of_enough {k n : Nat} (h : e.Enough tex o w k n)
    (hm : ∀ m < n, ¬ e.Enough tex o w k m) : IsLeast {m | e.Enough tex o w k m} n :=
  ⟨h, fun m h' => Nat.le_of_not_lt fun hlt => hm m hlt h'⟩

/-- **Further passes**: from `n` passes on, which are not enough to stop before, the loop comes
to the least number of further passes that is enough. -/
theorem gives_furtherPasses {k allowed n : Nat} {combined : ToolOutput}
    (hl : ∀ n, e.LogDue tex o w k n → e.Readable (e.worldAfter tex o w n).tree (tex.sibling ".log"))
    (ha : (n + 1 + allowed : Int) = max 1 e.maxPasses)
    (hs : combined.status = 0) (hn : e.statusAfter tex o w n = 0)
    (hm : ∀ m < n, ¬ e.Enough tex o w k m) :
    Gives (e.furtherPasses (runProgram e.programs (passStart tex o)) (tex.sibling ".log") allowed
        (k - n) (combined, n + 1)) (e.worldAfter tex o w n) fun out ss _ => ∃ more,
      IsLeast {m | e.Enough tex o w k m} (n + more) ∧ ss = List.replicate more (passStart tex o) ∧
      out.1.status = e.statusAfter tex o w (n + more) ∧
      out.1.commands = combined.commands ++ ss.map (·.command) := by
  -- the induction is on the passes that are still allowed; that the passes before `n` were not
  -- enough makes the number of passes at which the loop ends the least one
  induction allowed generalizing n combined with
  | zero =>
    refine gives_pure ⟨0, isLeast_of_enough (.inl ?_) hm, rfl, ?_, by simp⟩
    · omega
    · rw [hs, Nat.add_zero, hn]
  | succ allowed ih =>
    have again (hne : ¬ e.Enough tex o w k n) :
        Gives (do
          let combined := combined.extend (← runProgram e.programs (passStart tex o))
          if combined.status ≠ 0 then return (combined, n + 1 + 1)
          e.furtherPasses (runProgram e.programs (passStart tex o)) (tex.sibling ".log") allowed
            (k - n - 1) (combined, n + 1 + 1)) (e.worldAfter tex o w n) fun out ss _ => ∃ more,
          IsLeast {m | e.Enough tex o w k m} (n + more) ∧
          ss = List.replicate more (passStart tex o) ∧
          out.1.status = e.statusAfter tex o w (n + more) ∧
          out.1.commands = combined.commands ++ ss.map (·.command) := by
      have hm' : ∀ m < n + 1, ¬ e.Enough tex o w k m := by
        intro m hlt
        rcases Nat.lt_succ_iff_lt_or_eq.mp hlt with h | rfl
        · exact hm m h
        · exact hne
      refine gives_bind (gives_runProgram fun result hstatus hcommands => ?_)
      rw [← worldAfter_succ]
      have hstatus' : (combined.extend result).status = e.statusAfter tex o w (n + 1) := hstatus
      have hcommands' : (combined.extend result).commands =
          combined.commands ++ [(passStart tex o).command] := by
        rw [ToolOutput.extend, hcommands]
      by_cases hf : (combined.extend result).status ≠ 0
      · simp only [if_pos hf]
        rw [hstatus'] at hf
        exact gives_pure ⟨1, isLeast_of_enough (.inr (.inl hf)) hm', rfl, hstatus', hcommands'⟩
      · simp only [if_neg hf]
        rw [hstatus', ne_eq, not_not] at hf
        rw [Nat.sub_sub]
        refine (ih (by push_cast at ha ⊢; omega) (hstatus'.trans hf) hf hm').imp ?_
        rintro out ss w' ⟨more, hleast, rfl, hst, hcom⟩
        have hshift : n + 1 + more = n + (more + 1) := by omega
        rw [hshift] at hleast hst
        refine ⟨more + 1, hleast, ?_, hst, ?_⟩
        · rw [List.replicate_succ]
          rfl
        · rw [hcom, hcommands', List.append_assoc]
          rfl
    have hne (hasks : k ≤ n → e.AsksAgain tex (e.worldAfter tex o w n).tree) :
        ¬ e.Enough tex o w k n := by
      rintro (h | h | ⟨h, hquiet⟩)
      · omega
      · exact h hn
      · exact hquiet (hasks h)
    rw [furtherPasses]
    -- the log is looked at only when no more passes are due
    by_cases hk : k ≤ n
    · have hk' : (k - n == 0) = true := by
        rw [beq_iff_eq]
        omega
      simp only [hk', if_true]
      have hdue : e.LogDue tex o w k n := ⟨hk, by omega, hn, hm⟩
      refine gives_bind (gives_needsRerun (hl n hdue) fun needed hneeded => ?_)
      cases needed with
      | true => exact again (hne fun _ => hneeded.mp rfl)
      | false =>
        have hquiet : e.Enough tex o w k n :=
          .inr (.inr ⟨hk, fun h => Bool.false_ne_true (hneeded.mpr h)⟩)
        exact gives_pure
          ⟨0, isLeast_of_enough hquiet hm, rfl, by rw [hs, Nat.add_zero, hn], by simp⟩
    · have hk' : (k - n == 0) = false := by
        rw [beq_eq_false_iff_ne]
        omega
      simp only [hk', Bool.false_eq_true, if_false]
      exact again (hne fun h => absurd h hk)

private theorem gives_settle {k : Nat} {combined : ToolOutput} (hs : combined.status = 0)
    (hl : ∀ n, e.LogDue tex o w k n →
      e.Readable (e.worldAfter tex o w n).tree (tex.sibling ".log")) :
    Gives (e.settle tex (runProgram e.programs (passStart tex o)) k combined) w fun out ss _ =>
      ∃ n, IsLeast {m | e.Enough tex o w k m} n ∧ ss = List.replicate n (passStart tex o) ∧
        out.status = e.statusAfter tex o w n ∧
        out.commands = combined.commands ++ ss.map (·.command) := by
  have ha : ((0 : Nat) + 1 + (e.maxPasses - 1).toNat : Int) = max 1 e.maxPasses := by omega
  refine gives_bind ((gives_furtherPasses hl ha hs rfl (by simp)).imp ?_)
  rintro ⟨out, passes⟩ ss w' ⟨n, hn, hss, hst, hcom⟩
  rw [Nat.zero_add] at hn hst
  refine gives_bind (gives_log (gives_pure ?_))
  simp only [List.append_nil]
  exact ⟨n, hn, hss, hst, hcom⟩

/-! ### The whole -/

/-- MakeIndex fails, or the passes behind the index are run. -/
private theorem gives_indexAndSettle {k : Nat} {combined : ToolOutput} (hs : combined.status = 0)
    (hl : ∀ is k' w₃ n, e.Indexing tex w k is k' w₃ → e.LogDue tex o w₃ k' n →
      e.Readable (e.worldAfter tex o w₃ n).tree (tex.sibling ".log")) :
    Gives (e.indexAndSettle tex (runProgram e.programs (passStart tex o)) k combined) w
      fun out ss _ => out.commands = combined.commands ++ ss.map (·.command) ∧
        ((e.HasIndex tex w.tree ∧ ss = [makeindexStart tex] ∧ out.status ≠ 0 ∧
            out.status = w.status e.programs (makeindexStart tex)) ∨
          ∃ is k' w₃ n, e.Indexing tex w k is k' w₃ ∧ IsLeast {n | e.Enough tex o w₃ k' n} n ∧
            ss = is ++ List.replicate n (passStart tex o) ∧
            out.status = e.statusAfter tex o w₃ n) := by
  refine gives_bind (gives_needsMakeindex fun needed hneeded => ?_)
  cases needed with
  | true =>
    have hi : e.HasIndex tex w.tree := hneeded.mp rfl
    refine gives_bind (gives_runProgram fun result hstatus hcommands => ?_)
    have hcommands' : (combined.extend result).commands =
        combined.commands ++ [(makeindexStart tex).command] := by
      rw [ToolOutput.extend, hcommands]
      rfl
    by_cases hf : (combined.extend result).status ≠ 0
    · simp only [if_pos hf]
      exact gives_pure ⟨hcommands', .inl ⟨hi, rfl, hf, hstatus⟩⟩
    · simp only [if_neg hf]
      rw [ne_eq, not_not] at hf
      have hmade := Indexing.made (k := k) hi (hstatus.symm.trans hf)
      refine (gives_settle hf fun n hn => hl _ _ _ n hmade hn).imp ?_
      rintro out ss w' ⟨n, hn, rfl, hst, hcom⟩
      refine ⟨?_, .inr ⟨_, _, _, n, hmade, hn, rfl, hst⟩⟩
      rw [hcom, hcommands', List.append_assoc]
      rfl
  | false =>
    have hi : ¬ e.HasIndex tex w.tree := fun h => Bool.false_ne_true (hneeded.mpr h)
    refine (gives_settle hs fun n hn => hl _ _ _ n (.skipped hi) hn).imp ?_
    rintro out ss w' ⟨n, hn, rfl, hst, hcom⟩
    exact ⟨hcom, .inr ⟨[], k, w, n, .skipped hi, hn, rfl, hst⟩⟩

theorem Citing.unique {bs bs' : List Start} {k k' : Nat} {w₂ w₂' : World}
    (h : e.Citing tex w bs k w₂) (h' : e.Citing tex w bs' k' w₂') :
    bs = bs' ∧ k = k' ∧ w₂ = w₂' := by
  cases h with
  | skipped h =>
    cases h' with
    | skipped => exact ⟨rfl, rfl, rfl⟩
    | made h' => exact absurd h' h
  | made h =>
    cases h' with
    | skipped h' => exact absurd h h'
    | made => exact ⟨rfl, rfl, rfl⟩

theorem Indexing.unique {is is' : List Start} {k k₁ k₂ : Nat} {w₃ w₃' : World}
    (h : e.Indexing tex w k is k₁ w₃) (h' : e.Indexing tex w k is' k₂ w₃') :
    is = is' ∧ k₁ = k₂ ∧ w₃ = w₃' := by
  cases h with
  | skipped h =>
    cases h' with
    | skipped => exact ⟨rfl, rfl, rfl⟩
    | made h' => exact absurd h' h
  | made h =>
    cases h' with
    | skipped h' => exact absurd h h'
    | made => exact ⟨rfl, rfl, rfl⟩

private theorem Citing.status_lt {bs : List Start} {k : Nat} {w₂ : World}
    (h : e.Citing tex w bs k w₂)
    (hb : e.HasCitations tex w.tree) : w.status e.programs (bibtexStart tex) < 2 := by
  cases h with
  | skipped h => exact absurd hb h
  | made _ hs => exact hs

private theorem Indexing.status_eq {is : List Start} {k k' : Nat} {w₃ : World}
    (h : e.Indexing tex w k is k' w₃) (hi : e.HasIndex tex w.tree) :
    w.status e.programs (makeindexStart tex) = 0 := by
  cases h with
  | skipped h => exact absurd hi h
  | made _ hs => exact hs

/-- A world has one schedule. -/
theorem Schedule.unique {ss ss' : List Start} {status status' : Int}
    (h : e.Schedule tex o w ss status) (h' : e.Schedule tex o w ss' status') :
    ss = ss' ∧ status = status' := by
  cases h with
  | passFails hf =>
    cases h' with
    | passFails => exact ⟨rfl, rfl⟩
    | bibtexFails h | makeindexFails h | settles h => exact absurd h hf
  | bibtexFails h hw hb hs =>
    subst hw
    cases h' with
    | passFails hf => exact absurd h hf
    | bibtexFails _ hw => exact ⟨by rfl, by rw [hw]⟩
    | makeindexFails _ hc | settles _ hc => exact absurd (hc.status_lt hb) (Int.not_lt.mpr hs)
  | makeindexFails h hc hi hs =>
    cases h' with
    | passFails hf => exact absurd h hf
    | bibtexFails _ hw hb hs' =>
      subst hw
      exact absurd (hc.status_lt hb) (Int.not_lt.mpr hs')
    | makeindexFails _ hc' =>
      obtain ⟨rfl, -, rfl⟩ := hc.unique hc'
      exact ⟨rfl, rfl⟩
    | settles _ hc' hi' =>
      obtain ⟨-, -, rfl⟩ := hc.unique hc'
      exact absurd (hi'.status_eq hi) hs
  | settles h hc hi hn =>
    cases h' with
    | passFails hf => exact absurd h hf
    | bibtexFails _ hw hb hs' =>
      subst hw
      exact absurd (hc.status_lt hb) (Int.not_lt.mpr hs')
    | makeindexFails _ hc' hi' hs' =>
      obtain ⟨-, -, rfl⟩ := hc.unique hc'
      exact absurd (hi.status_eq hi') hs'
    | settles _ hc' hi' hn' =>
      obtain ⟨rfl, rfl, rfl⟩ := hc.unique hc'
      obtain ⟨rfl, rfl, rfl⟩ := hi.unique hi'
      obtain rfl := hn.unique hn'
      exact ⟨rfl, rfl⟩

/-- What the driver does behind the first pass and the bibliography keeps to the schedule. -/
private theorem schedule_of_index {bs ss : List Start} {k : Nat} {w₂ : World} {status : Int}
    (h : w.status e.programs (passStart tex o) = 0)
    (hb : e.Citing tex (w.after e.programs (passStart tex o)) bs k w₂)
    (hi : (e.HasIndex tex w₂.tree ∧ ss = [makeindexStart tex] ∧ status ≠ 0 ∧
            status = w₂.status e.programs (makeindexStart tex)) ∨
          ∃ is k' w₃ n, e.Indexing tex w₂ k is k' w₃ ∧ IsLeast {n | e.Enough tex o w₃ k' n} n ∧
            ss = is ++ List.replicate n (passStart tex o) ∧
            status = e.statusAfter tex o w₃ n) :
    e.Schedule tex o w (passStart tex o :: (bs ++ ss)) status := by
  obtain ⟨hi, rfl, hf, rfl⟩ | ⟨is, k', w₃, n, hi, hn, rfl, rfl⟩ := hi
  · exact .makeindexFails h hb hi hf
  · exact .settles h hb hi hn

private theorem gives_compile (hc : e.Consultable tex o w) :
    Gives (e.compile tex o) w fun out ss _ =>
      e.Schedule tex o w ss out.status ∧ out.commands = ss.map (·.command) := by
  refine gives_bind (gives_log (gives_bind (gives_runProgram fun first hstatus hcommands => ?_)))
  by_cases hf : first.status ≠ 0
  · simp only [if_pos hf]
    refine gives_pure ⟨?_, hcommands⟩
    rw [hstatus] at hf ⊢
    exact .passFails hf
  · simp only [if_neg hf]
    rw [ne_eq, not_not] at hf
    have h : w.status e.programs (passStart tex o) = 0 := hstatus.symm.trans hf
    refine gives_bind (gives_needsBibtex (hc.aux h) fun needed hneeded => ?_)
    cases needed with
    | true =>
      have hb := hneeded.mp rfl
      refine gives_bind (gives_runProgram fun result hstatus' hcommands' => ?_)
      have hcom₁ : (first.extend result).commands =
          [(passStart tex o).command, (bibtexStart tex).command] := by
        rw [ToolOutput.extend, hcommands, hcommands']
        rfl
      have hst : (first.extend result).status =
          (w.after e.programs (passStart tex o)).status e.programs (bibtexStart tex) := hstatus'
      by_cases hs : bibtexErrorStatus ≤ (first.extend result).status
      · simp only [if_pos hs]
        refine gives_pure ⟨?_, hcom₁⟩
        rw [hst] at hs ⊢
        exact .bibtexFails h rfl hb hs
      · simp only [if_neg hs]
        rw [hst] at hs
        have hmade := Citing.made hb (Int.not_le.mp hs)
        have hbehind : Gives (e.indexAndSettle tex (runProgram e.programs (passStart tex o))
              passesAfterBibtex { first.extend result with status := 0 })
            ((w.after e.programs (passStart tex o)).after e.programs (bibtexStart tex))
            fun out ss _ =>
              e.Schedule tex o w (passStart tex o :: bibtexStart tex :: ss) out.status ∧
              out.commands = (passStart tex o :: bibtexStart tex :: ss).map (·.command) := by
          refine (gives_indexAndSettle rfl fun is k' w₃ n => hc.log h hmade).imp ?_
          rintro out ss w' ⟨hcom, hi⟩
          refine ⟨schedule_of_index h hmade hi, ?_⟩
          rw [hcom, hcom₁]
          rfl
        -- a warning of BibTeX is logged, and its status is forgotten
        by_cases hw : (first.extend result).status ≠ 0
        · simp only [if_pos hw]
          exact gives_bind (gives_log hbehind)
        · simp only [if_neg hw]
          exact hbehind
    | false =>
      have hb : ¬ e.HasCitations tex (w.after e.programs (passStart tex o)).tree :=
        fun hb => Bool.false_ne_true (hneeded.mpr hb)
      have hskip := Citing.skipped hb
      refine (gives_indexAndSettle hf fun is k' w₃ n => hc.log h hskip).imp ?_
      rintro out ss w' ⟨hcom, hi⟩
      refine ⟨schedule_of_index h hskip hi, ?_⟩
      rw [hcom, hcommands]
      rfl

/-- **The emulated driver keeps to the schedule**, as long as its starts succeed and the files
that it looks at can be read. Its commands are those of the programs it starts, in order. -/
theorem compile_schedule (past : List Note) {t : Tree}
    (hc : e.Consultable tex o ⟨startsOf past, t⟩)
    (hs : StartsSucceed ((e.compile tex o).run past t).events) :
    ∃ out, ((e.compile tex o).run past t).result = .ok out ∧
      e.Schedule tex o ⟨startsOf past, t⟩ (startsOf ((e.compile tex o).run past t).events)
        out.status ∧
      out.commands = (startsOf ((e.compile tex o).run past t).events).map (·.command) :=
  gives_compile hc past rfl hs

/-! ### A document with citations and an index -/

/-- A pass that leaves a log. -/
def passWithLog (log : String) : ScriptedRun where
  written := [(Path.ofString "r.log", some (utf8Encode log))]

/-- A driver whose first pass leaves citations and an index. BibTeX warns, and it takes the log
four passes to be quiet. -/
def scholarly : Emulation where
  here := Path.ofString "/"
  programs := Script.programs
    ⟨[("pdflatex",
        [{ written := [(Path.ofString "r.aux", some (utf8Encode "\\bibdata{r}")),
            (Path.ofString "r.idx", some []), (Path.ofString "r.log", some [])] },
          passWithLog "Please rerun LaTeX.", passWithLog "Rerun to get cross-references right.",
          passWithLog ""]),
      ("bibtex", [{ ending := .exited 1 [] [] }])]⟩ (Path.ofString "/")
  which _ name := some name
  maxPasses := 10

/-- Where the driver works, and with which options. -/
def scholarlyTex : Path := Path.ofString "/r.tex"

/-- The options of the driver. -/
def scholarlyOptions : TexOptions := { program := Path.ofString "/pdflatex" }

private theorem readable_of_isSome {t : Tree} {p : Path}
    (h : (t.read e.here p).toOption.isSome = true) : e.Readable t p := by
  intro _
  cases hr : t.read e.here p with
  | ok content => exact ⟨content, rfl⟩
  | error error =>
    rw [hr] at h
    cases h

private theorem consultable_scholarly :
    scholarly.Consultable scholarlyTex scholarlyOptions ⟨[], ∅⟩ where
  aux _ _ := readable_of_isSome (by decide +kernel)
  log {_ _ _ _ n _ _} _ hb hi hn := by
    have hcites : scholarly.HasCitations scholarlyTex
        (World.after scholarly.programs ⟨[], ∅⟩ (passStart scholarlyTex scholarlyOptions)).tree :=
      ⟨rfl, utf8Encode "\\bibdata{r}", by decide +kernel, by decide +kernel⟩
    obtain ⟨rfl, rfl, rfl⟩ := hb.unique (.made hcites (by decide +kernel))
    obtain ⟨rfl, rfl, rfl⟩ := hi.unique (.made ⟨by decide +kernel, rfl⟩ (by decide +kernel))
    -- at most ten passes are allowed, so that the log is due behind a few only
    have hlt : n < 9 := Nat.lt_of_succ_lt_succ (Int.ofNat_lt.mp hn.2.1)
    refine readable_of_isSome ?_
    clear hn
    revert n
    decide +kernel

/-- BibTeX makes two further passes due, and the log behind the third one asks for a fourth. -/
theorem compile_schedule_scholarly :
    let pass := passStart scholarlyTex scholarlyOptions
    let starts := [pass, bibtexStart scholarlyTex, makeindexStart scholarlyTex, pass, pass, pass]
    let done := (scholarly.compile scholarlyTex scholarlyOptions).run [] ∅
    scholarly.Consultable scholarlyTex scholarlyOptions ⟨[], ∅⟩ ∧ StartsSucceed done.events ∧
      ∃ out, done.result = .ok out ∧
        scholarly.Schedule scholarlyTex scholarlyOptions ⟨[], ∅⟩ starts out.status ∧
        out.commands = starts.map (·.command) := by
  intro pass starts done
  have hs : StartsSucceed done.events := by decide +kernel
  have hstarts : startsOf done.events = starts := by decide +kernel
  obtain ⟨out, hr, hsched, hcom⟩ := compile_schedule [] consultable_scholarly hs
  rw [hstarts] at hsched hcom
  exact ⟨consultable_scholarly, hs, out, hr, hsched, hcom⟩

end Galley.Toolchain.Emulation
