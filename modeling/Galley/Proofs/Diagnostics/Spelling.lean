import Galley.Proofs.Diagnostics.Merged
import Galley.Proofs.Path.Spelling

/-!
# Spellings of the woven document

A log may name the woven document in one way and the concordance in another. Both names are read
from the directory of the document, but the one is normalized when the log is read, and the other
only when the two are compared. The comparison does not depend on how they are spelled: it holds
just if both names denote the same place (`remap_of_spelling`).

Two slashes in front are left out: a name is normalized to a path from that other root, while the
comparison takes all roots for one. Names with a NUL in them cannot be compared at all, also where
they are the same (`mapsFile_of_nul`).
-/

namespace Galley.Entry

open Galley.Path (HasTwoSlashes reached)

/-- The entry for a file that is named in a log, `base` being the directory of the log. -/
def inFile (e : Entry) (base name : String) : Entry :=
  { e with file := some ((Path.ofString base).resolveIn name) }

section Spelling

variable {base output name : String} {c : Concordance}

/-- What is read from a directory and normalized has no NUL if the two spellings have none. -/
private theorem hasNul_resolveIn (habs : base.toList.head? = some '/')
    (hbase : '\x00' ∉ base.toList)
    (hname : '\x00' ∉ name.toList) : ((Path.ofString base).resolveIn name).hasNul = false :=
  Path.hasNul_normalize (Path.hasNul_child (Path.hasNul_ofString hbase) hname)
    (Path.isAbsolute_child habs name)

/-- A name stands for the woven document if it denotes the same place. -/
private theorem mapsFile_resolveIn (habs : base.toList.head? = some '/')
    (hbase : ¬ HasTwoSlashes base) (houtput : ¬ HasTwoSlashes output)
    (ho : c.outputFile = some ((Path.ofString base).child output)) (hl : c.lines ≠ [])
    (hname : ¬ HasTwoSlashes name) (here : Path) :
    c.mapsFile here ((Path.ofString base).resolveIn name) =
      if ((Path.ofString base).resolveIn name).hasNul = true ∨
          ((Path.ofString base).child output).hasNul = true then .error .embeddedNul
      else .ok (decide (reached base name = reached base output)) := by
  have hempty : c.isEmpty = false := by simp [Concordance.isEmpty, ho, hl]
  have hsettled : ((Path.ofString base).resolveIn name).Settled :=
    Path.settled_resolveIn (Path.isAbsolute_ofString_iff.mpr habs) (Path.no_slash_ofString base)
      name
  have hlocate : here.locate ((Path.ofString base).resolveIn name) =
      ⟨.root, reached base name⟩ := by
    rw [hsettled.locate_eq, Path.resolveIn_eq habs hbase hname]
  have hsame : (here.locate ((Path.ofString base).resolveIn name) ==
      here.locate ((Path.ofString base).child output)) =
        decide (reached base name = reached base output) := by
    rw [hlocate, Path.locate_child habs hbase houtput, Bool.eq_iff_iff]
    simp
  rw [Concordance.mapsFile_of_outputFile hempty ho, hsame]

/-- **Remapping does not depend on how files are spelled.** A file that is named in a log is taken
for the woven document just if its name and the one in the concordance denote the same place, so
that two names of one place are remapped alike, and an entry for any other file stays as it is.
None of the spellings has a NUL in it; a path with one is not compared. -/
theorem remap_of_spelling (habs : base.toList.head? = some '/')
    (hbase : ¬ HasTwoSlashes base) (houtput : ¬ HasTwoSlashes output)
    (hbase' : '\x00' ∉ base.toList) (houtput' : '\x00' ∉ output.toList)
    (ho : c.outputFile = some ((Path.ofString base).child output)) (hl : c.lines ≠ [])
    (here : Path) :
    (∀ name, ¬ HasTwoSlashes name → '\x00' ∉ name.toList →
      c.mapsFile here ((Path.ofString base).resolveIn name) =
        .ok (decide (reached base name = reached base output))) ∧
    (∀ name name', ¬ HasTwoSlashes name → ¬ HasTwoSlashes name' →
      reached base name = reached base name' → ∀ e : Entry,
        (e.inFile base name).remap here c = (e.inFile base name').remap here c) ∧
    (∀ name, ¬ HasTwoSlashes name → '\x00' ∉ name.toList →
      reached base name ≠ reached base output → ∀ e : Entry,
        (e.inFile base name).remap here c = .ok (e.inFile base name)) ∧
    ∀ name, ¬ HasTwoSlashes name → ((Path.ofString base).resolveIn name).hasNul = true →
      ∀ e : Entry, (e.inFile base name).remap here c = .error .embeddedNul := by
  have hchild : ((Path.ofString base).child output).hasNul = false :=
    Path.hasNul_child (Path.hasNul_ofString hbase') houtput'
  have hmaps : ∀ name, ¬ HasTwoSlashes name → '\x00' ∉ name.toList →
      c.mapsFile here ((Path.ofString base).resolveIn name) =
        .ok (decide (reached base name = reached base output)) := by
    intro name hname hname'
    rw [mapsFile_resolveIn habs hbase houtput ho hl hname, hasNul_resolveIn habs hbase' hname',
      hchild]
    simp
  refine ⟨hmaps, fun name name' hname hname' hsame e => ?_, fun name hname hname' hother e => ?_,
    fun name hname hnul e => ?_⟩
  · rw [inFile, inFile, Path.resolveIn_eq habs hbase hname, Path.resolveIn_eq habs hbase hname',
      hsame]
  · have hno := hmaps name hname hname'
    rw [decide_eq_false hother] at hno
    rw [remap_of_mapsFile rfl hno]
    rfl
  · refine remap_of_mapsFile_error rfl ?_
    rw [mapsFile_resolveIn habs hbase houtput ho hl hname, if_pos (.inl hnul)]

end Spelling

/-- A concordance that names the woven document by a detour. -/
def detour : Concordance where
  outputFile := some ((Path.ofString "/doc/./sub//..").child "out/../notes.tex")
  inputFile := some (Path.ofString "/doc/notes.Rnw")
  lines := [7, 8]

/-- An error that does not name a file yet. -/
def unplaced : Entry := ⟨.error, none, 2, "Undefined control sequence"⟩

/-- The document is found under a name that climbs beyond the root, and nothing else is taken for
it. -/
theorem remap_of_spelling_detour :
    (¬ HasTwoSlashes "/doc/./sub//.." ∧ ¬ HasTwoSlashes "out/../notes.tex" ∧
      '\x00' ∉ "/doc/./sub//..".toList ∧ '\x00' ∉ "out/../notes.tex".toList ∧
      detour.outputFile = some ((Path.ofString "/doc/./sub//..").child "out/../notes.tex") ∧
      detour.lines ≠ []) ∧
    detour.mapsFile (Path.ofString "/")
      ((Path.ofString "/doc/./sub//..").resolveIn "../..//doc/./notes.tex") = .ok true ∧
    (unplaced.inFile "/doc/./sub//.." "../..//doc/./notes.tex").remap (Path.ofString "/") detour =
      .ok ⟨.error, some (Path.ofString "/doc/notes.Rnw"), 8, "Undefined control sequence"⟩ ∧
    (unplaced.inFile "/doc/./sub//.." "notes.tex/x").remap (Path.ofString "/") detour =
      .ok (unplaced.inFile "/doc/./sub//.." "notes.tex/x") := by
  have habs : "/doc/./sub//..".toList.head? = some '/' := by decide
  have hbase : ¬ HasTwoSlashes "/doc/./sub//.." := by decide
  have houtput : ¬ HasTwoSlashes "out/../notes.tex" := by decide
  have hbase' : '\x00' ∉ "/doc/./sub//..".toList := by decide
  have houtput' : '\x00' ∉ "out/../notes.tex".toList := by decide
  have hlines : detour.lines ≠ [] := by decide
  obtain ⟨hmaps, halike, hother, -⟩ := remap_of_spelling habs hbase houtput hbase' houtput'
    (c := detour) rfl hlines (Path.ofString "/")
  refine ⟨⟨hbase, houtput, hbase', houtput', rfl, hlines⟩,
    (hmaps _ (by decide) (by decide)).trans (by decide), ?_,
    hother _ (by decide) (by decide) (by decide) _⟩
  rw [halike _ "/doc/notes.tex" (by decide) (by decide) (by decide)]
  decide

/-- **A name with a NUL in it is not found**, even where the log and the concordance spell it
alike: the comparison fails, and so does remapping. -/
theorem mapsFile_of_nul :
    let c : Concordance :=
      { outputFile := some ((Path.ofString "/doc").child "./a\x00.tex")
        inputFile := some (Path.ofString "/doc/a.Rnw"), lines := [7, 8] }
    reached "/doc" "a\x00.tex" = reached "/doc" "./a\x00.tex" ∧ c.isEmpty = false ∧
      c.mapsFile (Path.ofString "/") ((Path.ofString "/doc").resolveIn "a\x00.tex") =
        .error .embeddedNul ∧
      (unplaced.inFile "/doc" "a\x00.tex").remap (Path.ofString "/") c = .error .embeddedNul := by
  decide

end Galley.Entry
