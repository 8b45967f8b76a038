import Galley.Diagnostics
import Galley.Proofs.Log.Report
import Galley.Proofs.Result

/-!
# Diagnostics that can be shown

An entry is shown with its file and its line. It cannot be shown without a file, or with a line
of more digits than are written: `Entry.Showable`. Showing the diagnostics succeeds just if each
of them can be shown, both in the report (`Diagnostics.report_eq_ok_iff`) and as lines
(`Diagnostics.exists_lines_eq_ok_iff`).

Every entry that is read from a log has a file (`TexLog.file_isSome_of_load`,
`BibtexLog.file_isSome_of_load`).
-/

namespace Galley

open Text

/-! ### Showing -/

/-- Whether an entry can be shown: it has a file and a line with no more digits than are
written. -/
def Entry.Showable (e : Entry) : Prop :=
  e.file.isSome = true ∧ e.line.natAbs < Nat.pow 10 digitLimit

private theorem Entry.exists_format_eq_ok_iff (base : Path) {e : Entry} :
    (∃ line, e.format base = .ok line) ↔ e.Showable := by
  obtain ⟨kind, file, line, message⟩ := e
  rw [Entry.Showable, Entry.format, writeInt?]
  cases file with
  | none => simp
  | some file =>
    by_cases hl : line.natAbs < Nat.pow 10 digitLimit
    · rw [if_pos hl]
      exact ⟨fun _ => ⟨rfl, hl⟩, fun _ => ⟨_, rfl⟩⟩
    · rw [if_neg hl]
      simp only [hl, reduceCtorEq, exists_false, and_false]

namespace Diagnostics

/-- Whether all entries can be shown. -/
def Showable (d : Diagnostics) : Prop := ∀ e ∈ d.tex ++ d.bibtex, e.Showable

private theorem exists_mapM_format_eq_ok_iff {base : Path} {entries : List Entry} :
    (∃ lines, entries.mapM (Entry.format base) = .ok lines) ↔ ∀ e ∈ entries, e.Showable := by
  induction entries with
  | nil => simp [pure, Except.pure]
  | cons e rest ih =>
    rw [List.mapM_cons, List.forall_mem_cons, ← ih, ← Entry.exists_format_eq_ok_iff base]
    cases e.format base with
    | error crash => simp [bind, Except.bind]
    | ok line => cases rest.mapM (Entry.format base) <;> simp [bind, Except.bind, pure, Except.pure]

/-- The diagnostics have lines just if all of them can be shown. -/
theorem exists_lines_eq_ok_iff {d : Diagnostics} : (∃ lines, d.lines = .ok lines) ↔ d.Showable :=
  exists_mapM_format_eq_ok_iff

private theorem entryLines_eq_ok_iff {base : Path} {entries : List Entry} :
    (entryLines base entries).2 = .ok () ↔ ∀ e ∈ entries, e.Showable := by
  induction entries with
  | nil => simp [entryLines]
  | cons e rest ih =>
    rw [List.forall_mem_cons, ← ih, ← Entry.exists_format_eq_ok_iff base, entryLines]
    cases e.format base <;> simp

private theorem groupLines_eq_ok_iff (base : Path) (title : String) (entries : List Entry) :
    (groupLines base title entries).2 = .ok () ↔ ∀ e ∈ entries, e.Showable := by
  rw [groupLines]
  split
  · next h => simp [h]
  · exact entryLines_eq_ok_iff

/-- The report is complete just if all diagnostics can be shown. -/
theorem report_eq_ok_iff {d : Diagnostics} : d.report.2 = .ok () ↔ d.Showable := by
  have htex := groupLines_eq_ok_iff d.base "\nLaTeX errors:\n" d.tex
  have hbibtex := groupLines_eq_ok_iff d.base "BibTeX errors:\n" d.bibtex
  rw [Showable, List.forall_mem_append, ← htex, ← hbibtex, report]
  rcases groupLines d.base "\nLaTeX errors:\n" d.tex with ⟨shown, _ | ⟨⟩⟩ <;> simp

end Diagnostics

/-! ### Entries have files -/

private theorem TexLog.file_isSome_of_mem {lines : List (List Char)} {files : FileStack}
    {entries : List Entry} (h : TexLog.entriesOfLines files lines = .ok entries) :
    ∀ e ∈ entries, e.file.isSome = true := by
  intro e he
  obtain ⟨files', front, line, behind, -, hr⟩ := TexLog.exists_reports_of_mem h he
  exact hr.file_isSome

theorem TexLog.file_isSome_of_load {t : Tree} {here p : Path} {entries : List Entry}
    (h : TexLog.load t here p = .ok entries) : ∀ e ∈ entries, e.file.isSome = true := by
  obtain ⟨text, -, h⟩ := exists_of_bind_eq_ok h
  exact TexLog.file_isSome_of_mem (eq_ok_of_mapError h)

private theorem BibtexLog.file_isSome_of_entryOfLine {baseDir : Path} {previous line : List Char}
    {next : Option (List Char)} {e : Entry}
    (h : BibtexLog.entryOfLine baseDir previous line next = .ok (some e)) :
    e.file.isSome = true := by
  have entryAt_ok : ∀ {kind place message},
      some <$> BibtexLog.entryAt baseDir kind place message = .ok (some e) →
        e.file.isSome = true := by
    intro kind place message h
    rw [map_eq_pure_bind] at h
    obtain ⟨e', he, h⟩ := exists_of_bind_eq_ok h
    obtain ⟨n, -, he⟩ := exists_of_bind_eq_ok he
    cases h
    cases he
    rfl
  rw [BibtexLog.entryOfLine] at h
  split at h
  · exact entryAt_ok h
  · split at h
    · exact entryAt_ok h
    · cases h

private theorem BibtexLog.file_isSome_of_mem {lines : List (List Char)} {baseDir : Path}
    {previous : List Char} {entries : List Entry}
    (h : BibtexLog.entriesOfLines baseDir previous lines = .ok entries) :
    ∀ e ∈ entries, e.file.isSome = true := by
  induction lines generalizing previous entries with
  | nil =>
    cases h
    simp
  | cons line rest ih =>
    obtain ⟨entry, hf, h⟩ := exists_of_bind_eq_ok h
    obtain ⟨more, hr, h⟩ := exists_of_bind_eq_ok h
    cases h
    rw [List.forall_mem_append]
    refine ⟨fun e he => ?_, ih hr⟩
    rw [Option.mem_toList.mp he] at hf
    exact BibtexLog.file_isSome_of_entryOfLine hf

theorem BibtexLog.file_isSome_of_load {t : Tree} {here p : Path} {entries : List Entry}
    (h : BibtexLog.load t here p = .ok entries) : ∀ e ∈ entries, e.file.isSome = true := by
  obtain ⟨text, -, h⟩ := exists_of_bind_eq_ok h
  exact BibtexLog.file_isSome_of_mem (eq_ok_of_mapError h)

end Galley
