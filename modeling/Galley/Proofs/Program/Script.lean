import Galley.Program.Script
import Galley.Proofs.Tree.SameBut

/-!
# Scripted programs in trees that are almost the same

Programs of which every run is written down beforehand do not look at the tree (`Programs.ofRuns`).
They end alike in trees that are the same but for some files, and leave such trees again, unless
they make a directory of one of those files or below it: whether that succeeds depends on the file
(`ScriptedRun.Spares`).
-/

namespace Galley

variable {t u : Tree} {dir : Path} {stale : Place → Prop}

/-- Programs whose runs depend on the starts alone. -/
def Programs.ofRuns (runs : List Start → Start → ScriptedRun) (here : Path) : Programs where
  bytes past s t := (runs past s).act (here.join (s.directory.getD here)) t
  text past s t :=
    let (ending, t) := (runs past s).act (here.join (s.directory.getD here)) t
    (Script.textEnding ending, t)

theorem Script.programs_eq (script : Script) (here : Path) :
    script.programs here = .ofRuns script.runOf here := rfl

namespace ScriptedRun

/-- The tree behind the deletions of a run. -/
def afterDeleting (r : ScriptedRun) (dir : Path) (t : Tree) : Tree :=
  r.deleted.foldl (fun t p => t.removeAll dir p) t

/-- The directories that a write needs, the path of the last one given. -/
def needed (dir p : Path) (content : Option (List UInt8)) : Path :=
  if content = none then dir.join p else (dir.join p).parent

/-- Whether a run in a directory makes no directory of what stands at some places. What stands
there may be taken away and may be written, as a file. -/
def Spares (r : ScriptedRun) (dir : Path) (stale : Place → Prop) : Prop :=
  ∀ w ∈ r.written, ∀ q ∈ Tree.trail (needed dir w.1 w.2), ¬ stale q

theorem spares_of_written {r : ScriptedRun} (h : r.written = []) : r.Spares dir stale := by
  simp [Spares, h]

theorem afterDeleting_sameBut (r : ScriptedRun) (dir : Path) (h : t.SameBut u stale) :
    (r.afterDeleting dir t).SameBut (r.afterDeleting dir u) stale := by
  rw [afterDeleting, afterDeleting]
  generalize r.deleted = paths
  induction paths generalizing t u with
  | nil => exact h
  | cons p rest ih => exact ih (h.removeAll dir p)

private theorem writeAll_sameBut (h : t.SameBut u stale) (hd : dir.isAbsolute = true)
    {writes : List (Path × Option (List UInt8))}
    (hw : ∀ w ∈ writes, ∀ q ∈ Tree.trail (needed dir w.1 w.2), ¬ stale q) :
    (writeAll dir t writes).2 = (writeAll dir u writes).2 ∧
      (writeAll dir t writes).1.SameBut (writeAll dir u writes).1 stale := by
  induction writes generalizing t u with
  | nil => exact ⟨rfl, h⟩
  | cons w rest ih =>
    obtain ⟨p, content⟩ := w
    obtain ⟨hfirst, hrest⟩ := List.forall_mem_cons.mp hw
    have hp : Tree.ChangedAlike stale (t.provide dir (dir.join p) content) _ :=
      h.provide (Path.isAbsolute_join hd p) hfirst
    rw [writeAll, writeAll]
    generalize t.provide dir (dir.join p) content = x at hp
    generalize u.provide dir (dir.join p) content = y at hp
    cases hp with
    | ok h' => exact ih h' hrest
    | error e => exact ⟨rfl, h⟩

/-- A run that spares the places ends alike, and leaves trees that are the same but for them. -/
theorem act_sameBut {r : ScriptedRun} (h : t.SameBut u stale) (hd : dir.isAbsolute = true)
    (hs : r.Spares dir stale) :
    (r.act dir t).1 = (r.act dir u).1 ∧ (r.act dir t).2.SameBut (r.act dir u).2 stale := by
  obtain ⟨he, ht⟩ := writeAll_sameBut (r.afterDeleting_sameBut dir h) hd hs
  rw [afterDeleting, afterDeleting] at he ht
  rw [act, act]
  revert he ht
  rcases writeAll dir _ r.written with ⟨t', fault⟩
  rcases writeAll dir _ r.written with ⟨u', fault'⟩
  rintro ⟨rfl⟩ ht
  cases fault with
  | none => exact ⟨rfl, ht⟩
  | some e => exact ⟨rfl, ht⟩

end ScriptedRun

end Galley
