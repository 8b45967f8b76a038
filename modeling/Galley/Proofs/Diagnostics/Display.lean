import Galley.Diagnostics
import Galley.Proofs.Path.Spelling

/-!
# The file that an entry shows

The line that shows an entry names its file as it is seen from the directory of the document, if it
lies in there, and from the root otherwise. Either way the name identifies the file: read from the
directory again, it gives the file back (`shownFaithfully_resolveIn`).

The directory need not be in normal form. A file is compared with the normal form of the directory,
while its name is read from the directory as it is; both agree because what is behind the directory
has no `..` in it that could climb back (`join_displayFile`).
-/

namespace Galley

open Text

namespace Path

/-! ### Names that lead down -/

/-- Whether a spelling leads down only: it has no slash in front and no component `..`. -/
def LeadsDown (s : String) : Prop := s.toList.head? ≠ some '/' ∧ ['.', '.'] ∉ fields '/' s.toList

private theorem up_mem_ofString_iff {s : String} :
    ".." ∈ (ofString s).parts ↔ ['.', '.'] ∈ fields '/' s.toList := by
  rw [ofString, partsOf, List.mem_map]
  constructor
  · rintro ⟨w, hw, hup⟩
    have hdots : w = ['.', '.'] := by rw [← String.toList_ofList (l := w), hup]; rfl
    exact hdots ▸ (List.mem_filter.mp hw).1
  · exact fun hmem => ⟨['.', '.'], List.mem_filter.mpr ⟨hmem, rfl⟩, rfl⟩

private theorem leadsDown_toString_iff {p : Path} (h : p.WellSpelled) :
    LeadsDown (toString p) ↔ p.isAbsolute = false ∧ ".." ∉ p.parts := by
  rw [LeadsDown, ← up_mem_ofString_iff, ne_eq, ← isAbsolute_ofString_iff, ofString_toString h,
    Bool.not_eq_true]

end Path

open Galley.Path

section Display

variable {base file : Path}

/-- A file is shown by the names behind the directory, if it lies in there, and from the root
otherwise. -/
theorem displayFile_cases (base : Path) (hf : file.Settled) :
    (file.LiesIn base.normalize ∧ ∃ rest, displayFile base file = ⟨.here, rest⟩ ∧
      file.parts = base.normalize.parts ++ rest ∧ ".." ∉ rest) ∨
    ¬ file.LiesIn base.normalize ∧ displayFile base file = file := by
  rw [displayFile]
  by_cases hin : file.LiesIn base.normalize
  · obtain ⟨rest, hp, hr⟩ := hin.exists_eq
    rw [hr]
    exact .inl ⟨hin, rest, rfl, hp, fun hup =>
      hf.no_up (hp ▸ List.mem_append_right base.normalize.parts hup)⟩
  · rw [relativeTo?_eq_none hin]
    exact .inr ⟨hin, rfl⟩

/-- What is shown leads to the file, also from a directory that is not in normal form. -/
theorem join_displayFile (habs : base.isAbsolute = true) (hf : file.Settled) :
    (base.join (displayFile base file)).normalize = file := by
  obtain ⟨hin, rest, hd, hp, hup⟩ | ⟨-, hd⟩ := displayFile_cases base hf
  · have hanchor : base.anchor = file.anchor := hin.1.symm
    have hbehind : (base.parts ++ rest).foldl enter [] = file.parts := by
      rw [List.foldl_append, foldl_enter_of_no_up hup, hp, normalize_eq habs]
    rw [hd]
    calc (base.join ⟨.here, rest⟩).normalize
        = ⟨base.anchor, (base.parts ++ rest).foldl enter []⟩ :=
          normalize_eq (isAbsolute_join habs _)
      _ = file := by rw [hanchor, hbehind]
  · rw [hd, join_of_isAbsolute hf.isAbsolute, hf.normalize_eq]

private theorem wellSpelled_displayFile (hf : file.Settled) (hw : file.WellSpelled) :
    (displayFile base file).WellSpelled := by
  obtain ⟨-, rest, hd, hp, -⟩ | ⟨-, hd⟩ := displayFile_cases base hf
  · rw [hd]
    exact fun w hr => hw w (hp ▸ List.mem_append_right _ hr)
  · rwa [hd]

end Display

/-! ### The main result -/

/-- The name that a file is shown by, `base` being the directory of the document. -/
def shownName (base file : Path) : String := toString (displayFile base file)

/-- Whether entries show a file by a name that identifies it: read from the directory it gives the
file, and it leads down from there just if the file lies there. -/
structure ShownFaithfully (base file : Path) : Prop where
  format_eq : ∀ (e : Entry) (line : String), e.file = some file → writeInt? e.line = some line →
    e.format base = .ok (shownName base file ++ " (line " ++ line ++ "): " ++ e.message)
  resolveIn_eq : base.resolveIn (shownName base file) = file
  leadsDown_iff : LeadsDown (shownName base file) ↔ file.LiesIn base.normalize
  fromRoot_iff : (shownName base file).toList.head? = some '/' ↔ ¬ file.LiesIn base.normalize

private theorem shownFaithfully {base file : Path} (habs : base.isAbsolute = true)
    (hf : file.Settled) (hw : file.WellSpelled) : ShownFaithfully base file := by
  have hspelled : (displayFile base file).WellSpelled := wellSpelled_displayFile hf hw
  refine ⟨fun e line he hl => ?_, ?_, ?_, ?_⟩
  · rw [Entry.format, he, hl]
    rfl
  · rw [resolveIn, child, shownName, ofString_toString hspelled, join_displayFile habs hf]
  · rw [shownName, leadsDown_toString_iff hspelled]
    obtain ⟨hin, rest, hd, -, hup⟩ | ⟨hout, hd⟩ := displayFile_cases base hf
    · rw [hd]
      exact iff_of_true ⟨rfl, hup⟩ hin
    · rw [hd, hf.isAbsolute]
      exact iff_of_false (fun h => Bool.noConfusion h.1) hout
  · rw [shownName, ← isAbsolute_ofString_iff, ofString_toString hspelled]
    obtain ⟨hin, rest, hd, -, -⟩ | ⟨hout, hd⟩ := displayFile_cases base hf
    · rw [hd]
      exact iff_of_false Bool.false_ne_true fun h => h hin
    · rw [hd]
      exact iff_of_true hf.isAbsolute hout

/-- **A displayed name identifies the file.** Whatever directory the document is in, and whatever
name a log gives, the file is shown faithfully, so that two files are shown by the same name only if
they are the same. -/
theorem shownFaithfully_resolveIn {base : String} (habs : base.toList.head? = some '/') :
    (∀ name, ShownFaithfully (ofString base) ((ofString base).resolveIn name)) ∧
    ∀ name name', shownName (ofString base) ((ofString base).resolveIn name) =
        shownName (ofString base) ((ofString base).resolveIn name') ↔
      (ofString base).resolveIn name = (ofString base).resolveIn name' := by
  have hbase : (ofString base).isAbsolute = true := isAbsolute_ofString_iff.mpr habs
  have hshown : ∀ name, ShownFaithfully (ofString base) ((ofString base).resolveIn name) :=
    fun name => shownFaithfully hbase (settled_resolveIn hbase (no_slash_ofString base) name)
      (((wellSpelled_ofString base).join (wellSpelled_ofString name)).normalize
        (isAbsolute_join hbase _))
  refine ⟨hshown, fun name name' => ⟨fun h => ?_, congrArg _⟩⟩
  have hread := congrArg (ofString base).resolveIn h
  rwa [(hshown name).resolveIn_eq, (hshown name').resolveIn_eq] at hread

/-- A file in the directory that is named by a detour, and one in a directory whose name only starts
alike. -/
theorem shownFaithfully_resolveIn_detour :
    "/doc/../doc/./work".toList.head? = some '/' ∧
    (shownName (ofString "/doc/../doc/./work")
        ((ofString "/doc/../doc/./work").resolveIn "../work/ch/../a.tex") = "a.tex" ∧
      (ofString "/doc/../doc/./work").resolveIn "a.tex" =
        (ofString "/doc/../doc/./work").resolveIn "../work/ch/../a.tex") ∧
    shownName (ofString "/doc/../doc/./work")
        ((ofString "/doc/../doc/./work").resolveIn "../work2/a.tex") = "/doc/work2/a.tex" ∧
      ¬ ((ofString "/doc/../doc/./work").resolveIn "../work2/a.tex").LiesIn
        (ofString "/doc/../doc/./work").normalize := by
  have habs : "/doc/../doc/./work".toList.head? = some '/' := by decide
  have hin : shownName (ofString "/doc/../doc/./work")
      ((ofString "/doc/../doc/./work").resolveIn "../work/ch/../a.tex") = "a.tex" := by decide
  have hout : shownName (ofString "/doc/../doc/./work")
      ((ofString "/doc/../doc/./work").resolveIn "../work2/a.tex") = "/doc/work2/a.tex" := by decide
  obtain ⟨hshown, -⟩ := shownFaithfully_resolveIn habs
  refine ⟨habs, ⟨hin, ?_⟩, hout, ?_⟩
  · rw [← hin, (hshown _).resolveIn_eq]
  · rw [← (hshown _).fromRoot_iff, hout]
    decide

end Galley
