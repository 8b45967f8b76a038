import Galley.Proofs.Concordance.LineMap
import Galley.Proofs.Diagnostics
import Galley.Text.Utf8

/-!
# Merged diagnostics

The diagnostics of a document are what its two logs contribute, the log of TeX first. Nothing is
lost and nothing comes twice, an entry of TeX is told in terms of the literate source just if the
concordance knows it, and neither log changes what the other one contributes: `merged_collect`.

The report and the lines of the diagnostics show the same entries by two functions. They end
alike (`report_snd`), and the error lines of a report that is complete are the lines of the
diagnostics (`progressErrors_report`).

There are two ways to lose a diagnostic, both with a concordance that maps lines
(`report_of_unnamedSource`). If it does not name its source, the entry cannot be shown. And a path
with a NUL in it cannot be compared with the document, so that nothing is collected (`Collected`).
-/

namespace Galley

open Text

/-! ### What a log contributes -/

/-- What a log contributes: its entries, or nothing if it cannot be read. -/
def contribution (r : Except LogError (List Entry)) : List Entry := r.toOption.getD []

section Contribution

variable {t : Tree} {here p : Path} {load : Tree → Path → Path → Except LogError (List Entry)}

/-- A log that is read is there to be read. -/
private theorem exists_read_of_readLogText {text : List Char}
    (h : readLogText t here p = .ok text) : ∃ content, t.read here p = .ok content := by
  obtain ⟨content, hr, -⟩ := exists_of_bind_eq_ok h
  exact ⟨content, eq_ok_of_mapError hr⟩

private theorem TexLog.exists_read_of_load {entries : List Entry}
    (h : TexLog.load t here p = .ok entries) : ∃ content, t.read here p = .ok content := by
  obtain ⟨text, hr, -⟩ := exists_of_bind_eq_ok h
  exact exists_read_of_readLogText hr

theorem BibtexLog.exists_read_of_load {entries : List Entry}
    (h : BibtexLog.load t here p = .ok entries) : ∃ content, t.read here p = .ok content := by
  obtain ⟨text, hr, -⟩ := exists_of_bind_eq_ok h
  exact exists_read_of_readLogText hr

private theorem contribution_eq_nil {r : Except LogError (List Entry)}
    (h : ∀ entries, r ≠ .ok entries) : contribution r = [] := by
  cases r with
  | ok entries => exact absurd rfl (h entries)
  | error e => rfl

/-- Of a log that is not looked at because nothing is there, nothing could be read. -/
private theorem result_readEntries
    (hload : ∀ {entries}, load t here p = .ok entries → ∃ content, t.read here p = .ok content)
    (past : List Note) :
    (Diagnostics.readEntries here p load past t).result = contribution (load t here p) := by
  simp only [Diagnostics.readEntries, Work.bind_apply, Chore.tree, Work.look_apply]
  by_cases hp : t.contains here p = true
  · cases hl : load t here p <;> simp [hp, contribution, Except.toOption, Work.bind_apply]
  · have hnone : contribution (load t here p) = [] := by
      refine contribution_eq_nil fun entries hl => ?_
      obtain ⟨content, hr⟩ := hload hl
      exact hp (Tree.contains_of_read hr)
    simp [hp, hnone]

private theorem state_readEntries (past : List Note) :
    (Diagnostics.readEntries here p load past t).state = t := by
  simp only [Diagnostics.readEntries, Work.bind_apply, Chore.tree, Work.look_apply]
  by_cases hp : t.contains here p = true
  · cases hl : load t here p <;> simp [hp, Work.bind_apply, Chore.log]
  · simp [hp]

/-- Nothing is read where nothing is, and no directory is read. -/
private theorem not_read_of_absent (h : t.contains here p = false ∨ t.isDirectory here p = true) :
    ¬ ∃ content, t.read here p = .ok content := by
  rintro ⟨content, hr⟩
  rw [Tree.contains_of_read hr] at h
  obtain h | h := h
  · cases h
  · rw [Tree.read] at hr
    rw [Tree.isDirectory] at h
    split at h
    · next hf => simp [hf] at hr
    · cases h

/-- A log that is missing, is a directory or fails to be read contributes nothing. -/
theorem contribution_of_absent
    (hload : ∀ {entries}, load t here p = .ok entries → ∃ content, t.read here p = .ok content)
    (h : t.contains here p = false ∨ t.isDirectory here p = true ∨
      ∃ e, load t here p = .error e) : contribution (load t here p) = [] := by
  refine contribution_eq_nil fun entries hl => ?_
  obtain h | h | ⟨e, he⟩ := h
  · exact not_read_of_absent (.inl h) (hload hl)
  · exact not_read_of_absent (.inr h) (hload hl)
  · rw [hl] at he
    cases he

end Contribution

/-! ### Entries in terms of the source -/

/-- Whether an entry is at the line number `k`, counted from zero, of those that a concordance
covers in the document that it is for. -/
structure Entry.KnownAt (here : Path) (c : Concordance) (e : Entry) (k : Nat) : Prop where
  file : ∃ file output, e.file = some file ∧ c.outputFile = some output ∧
    here.locate file = here.locate output
  line : e.line = c.offset + 1 + k
  lt : k < c.lines.length

/-- What becomes of an entry of the TeX log: the concordance gives it the source and its line, or
it stays as it is. -/
inductive Entry.Remapped (here : Path) (c : Concordance) (e : Entry) : Entry → Prop
  | known {k : Nat} {line : Int} (h : e.KnownAt here c k) (hl : c.lines[k]? = some line) :
      Remapped here c e { e with file := c.inputFile, line := line }
  | unknown (h : ∀ k, ¬ e.KnownAt here c k) : Remapped here c e e

/-- Whether the document of a concordance can be looked for at a path: the concordance maps
nothing, or neither of the two paths has a NUL in it. -/
def Concordance.Compares (c : Concordance) (path : Path) : Prop :=
  c.isEmpty = true ∨
    path.hasNul = false ∧ ∀ output, c.outputFile = some output → output.hasNul = false

/-- Whether the document of a concordance can be looked for at the file of an entry. -/
def Entry.Compared (c : Concordance) (e : Entry) : Prop :=
  ∀ file, e.file = some file → c.Compares file

namespace Concordance

variable {c : Concordance} {here path : Path}

private theorem mapsFile_of_isEmpty (h : c.isEmpty = true) : c.mapsFile here path = .ok false := by
  rw [mapsFile]
  cases c.outputFile <;> simp [h] <;> rfl

/-- The paths are compared, unless one of them has a NUL in it. -/
theorem mapsFile_of_outputFile {output : Path} (h : c.isEmpty = false)
    (ho : c.outputFile = some output) : c.mapsFile here path =
      if path.hasNul = true ∨ output.hasNul = true then .error .embeddedNul
      else .ok (here.locate path == here.locate output) := by
  simp only [mapsFile, ho, h, Path.resolve]
  cases path.hasNul <;> cases output.hasNul <;> rfl

private theorem exists_outputFile (h : c.isEmpty = false) : ∃ output, c.outputFile = some output :=
    by
  cases ho : c.outputFile with
  | none => simp [isEmpty, ho] at h
  | some output => exact ⟨output, rfl⟩

/-- A concordance that covers a line of a document is not empty. -/
private theorem isEmpty_eq_false {output : Path} {k : Nat} (ho : c.outputFile = some output)
    (hk : k < c.lines.length) : c.isEmpty = false := by
  have hlines : c.lines ≠ [] := List.ne_nil_of_length_pos (by omega)
  simp [isEmpty, ho, hlines]

private theorem mapsFile_eq_ok_iff {b : Bool} : c.mapsFile here path = .ok b ↔ c.Compares path ∧
    (b = true ↔ c.isEmpty = false ∧
      ∃ output, c.outputFile = some output ∧ here.locate path = here.locate output) := by
  cases h : c.isEmpty with
  | true =>
    rw [mapsFile_of_isEmpty h, Compares, h]
    cases b <;> simp
  | false =>
    obtain ⟨output, ho⟩ := exists_outputFile h
    rw [mapsFile_of_outputFile h ho, Compares, h, ho]
    simp only [Option.some.injEq, forall_eq', exists_eq_left']
    cases path.hasNul <;> cases output.hasNul <;> cases b <;> simp

/-- The comparison fails only for a NUL. -/
theorem mapsFile_eq_error_iff {crash : Crash} :
    c.mapsFile here path = .error crash ↔ crash = .embeddedNul ∧ ¬ c.Compares path := by
  cases h : c.isEmpty with
  | true =>
    rw [mapsFile_of_isEmpty h, Compares, h]
    simp
  | false =>
    obtain ⟨output, ho⟩ := exists_outputFile h
    rw [mapsFile_of_outputFile h ho, Compares, h, ho, eq_comm (a := crash)]
    simp only [Option.some.injEq, forall_eq']
    cases path.hasNul <;> cases output.hasNul <;> simp

end Concordance

namespace Entry

variable {here : Path} {c : Concordance} {e e' : Entry}

/-- An entry for a file is remapped once the file is compared with the document. -/
theorem remap_of_mapsFile {file : Path} {b : Bool} (hf : e.file = some file)
    (h : c.mapsFile here file = .ok b) : e.remap here c =
      .ok (if (b && c.covers e.line) = true then
        { e with file := c.inputFile, line := c.sourceLine e.line } else e) := by
  rw [remap, hf]
  simp only [h, bind, Except.bind]
  split <;> rfl

theorem remap_of_mapsFile_error {file : Path} {crash : Crash} (hf : e.file = some file)
    (h : c.mapsFile here file = .error crash) : e.remap here c = .error crash := by
  rw [remap, hf]
  simp only [h, bind, Except.bind]

private theorem exists_knownAt_iff {file : Path} (hf : e.file = some file) :
    (∃ k, e.KnownAt here c k) ↔ (c.isEmpty = false ∧
      ∃ output, c.outputFile = some output ∧ here.locate file = here.locate output) ∧
        c.covers e.line = true := by
  rw [Concordance.covers_iff]
  constructor
  · rintro ⟨k, ⟨file', output, hf', ho, hs⟩, hl, hk⟩
    obtain rfl : file = file' := Option.some.inj (hf.symm.trans hf')
    have he := Concordance.isEmpty_eq_false ho hk
    exact ⟨⟨he, output, ho, hs⟩, he, k, hk, hl⟩
  · rintro ⟨⟨-, output, ho, hs⟩, -, k, hk, hl⟩
    exact ⟨k, ⟨file, output, hf, ho, hs⟩, hl, hk⟩

/-- **An entry is told in terms of the source** just if the concordance knows it. -/
theorem remapped_of_remap (h : e.remap here c = .ok e') :
    e.Compared c ∧ e.Remapped here c e' := by
  cases hf : e.file with
  | none =>
    rw [remap, hf] at h
    cases h
    refine ⟨fun file h => ?_, .unknown ?_⟩
    · rw [hf] at h
      cases h
    · rintro k ⟨⟨file, output, h, -⟩, -⟩
      rw [hf] at h
      cases h
  | some file =>
    cases hm : c.mapsFile here file with
    | error crash =>
      rw [remap_of_mapsFile_error hf hm] at h
      cases h
    | ok b =>
      obtain ⟨hcomp, hb⟩ := Concordance.mapsFile_eq_ok_iff.mp hm
      have hknown : (b && c.covers e.line) = true ↔ ∃ k, e.KnownAt here c k := by
        rw [Bool.and_eq_true, hb, exists_knownAt_iff hf]
      rw [remap_of_mapsFile hf hm, Except.ok.injEq] at h
      refine ⟨fun file' h' => Option.some.inj (hf.symm.trans h') ▸ hcomp, ?_⟩
      subst h
      split
      · next hk =>
        obtain ⟨k, hk⟩ := hknown.mp hk
        obtain ⟨-, output, -, ho, -⟩ := hk.file
        rw [hk.line]
        exact .known hk (Concordance.sourceLine_eq (Concordance.isEmpty_eq_false ho hk.lt) hk.lt)
      · next hk => exact .unknown fun k h => hk (hknown.mpr ⟨k, h⟩)

/-- An entry cannot be remapped only if it cannot be compared. -/
private theorem not_compared_of_remap {crash : Crash} (h : e.remap here c = .error crash) :
    crash = .embeddedNul ∧ ¬ e.Compared c := by
  cases hf : e.file with
  | none =>
    rw [remap, hf] at h
    cases h
  | some file =>
    cases hm : c.mapsFile here file with
    | error crash' =>
      rw [remap_of_mapsFile_error hf hm, Except.error.injEq] at h
      obtain ⟨rfl, hn⟩ := Concordance.mapsFile_eq_error_iff.mp hm
      exact ⟨h.symm, fun hc => hn (hc file hf)⟩
    | ok b =>
      rw [remap_of_mapsFile hf hm] at h
      cases h

/-- A file is taken away only by a concordance that does not name its source. -/
theorem Remapped.file_isSome (h : e.Remapped here c e')
    (hc : c.isEmpty = true ∨ c.inputFile.isSome = true) (he : e.file.isSome = true) :
    e'.file.isSome = true := by
  cases h with
  | known hk hl =>
    obtain ⟨-, output, -, ho, -⟩ := hk.file
    rw [Concordance.isEmpty_eq_false ho hk.lt] at hc
    exact hc.resolve_left Bool.false_ne_true
  | unknown => exact he

end Entry

namespace Diagnostics

/-! ### Two ways to show entries -/

private theorem entryLines_eq (base : Path) (entries : List Entry) :
    (entryLines base entries).2 = (entries.mapM (Entry.format base)).map (fun _ => ()) ∧
      ∀ lines, entries.mapM (Entry.format base) = .ok lines →
        (entryLines base entries).1 =
          lines.map (fun line => ProgressLine.error (line ++ "\n")) ++ [.plain "\n"] := by
  induction entries with
  | nil =>
    refine ⟨rfl, fun lines h => ?_⟩
    cases h
    rfl
  | cons e rest ih =>
    rw [entryLines, List.mapM_cons]
    cases e.format base with
    | error crash =>
      refine ⟨rfl, fun lines h => ?_⟩
      cases h
    | ok line =>
      refine ⟨?_, fun lines h => ?_⟩
      · rw [ih.1]
        cases rest.mapM (Entry.format base) <;> rfl
      · obtain ⟨_, ⟨⟩, h⟩ := exists_of_bind_eq_ok h
        obtain ⟨more, hm, h⟩ := exists_of_bind_eq_ok h
        cases h
        simp only [ih.2 more hm, List.map_cons, List.cons_append]

private theorem groupLines_eq (base : Path) (title : String) (entries : List Entry) :
    (groupLines base title entries).2 = (entries.mapM (Entry.format base)).map (fun _ => ()) ∧
      ∀ lines, entries.mapM (Entry.format base) = .ok lines →
        progressErrors (groupLines base title entries).1 = lines.map (· ++ "\n") := by
  obtain ⟨hend, hshown⟩ := entryLines_eq base entries
  rw [groupLines]
  split
  · next h =>
    subst h
    refine ⟨rfl, fun lines h => ?_⟩
    cases h
    rfl
  · refine ⟨hend, fun lines h => ?_⟩
    simp [hshown lines h, progressErrors, ProgressLine.plain, ProgressLine.error, List.filter_map,
      Function.comp_def]

variable {d : Diagnostics}

/-- **The report and the lines end alike**: with the same error, or without one. -/
theorem report_snd : d.report.2 = d.lines.map fun _ => () := by
  have htex := (groupLines_eq d.base "\nLaTeX errors:\n" d.tex).1
  have hbib := (groupLines_eq d.base "BibTeX errors:\n" d.bibtex).1
  rw [report, lines, List.mapM_append]
  revert htex
  rcases groupLines d.base "\nLaTeX errors:\n" d.tex with ⟨shown, crash | ⟨⟩⟩ <;> intro htex <;>
    cases ht : d.tex.mapM (Entry.format d.base) <;> rw [ht] at htex <;> cases htex
  · rfl
  · simp only [hbib]
    cases d.bibtex.mapM (Entry.format d.base) <;> rfl

/-- **The errors of a report are the lines**, each as a line of its own. -/
theorem progressErrors_report {ls : List String} (h : d.lines = .ok ls) :
    progressErrors d.report.1 = ls.map (· ++ "\n") := by
  rw [lines, List.mapM_append] at h
  obtain ⟨ts, htex, h⟩ := exists_of_bind_eq_ok h
  obtain ⟨bs, hbib, h⟩ := exists_of_bind_eq_ok h
  cases h
  obtain ⟨htend, htshown⟩ := groupLines_eq d.base "\nLaTeX errors:\n" d.tex
  have hbshown := (groupLines_eq d.base "BibTeX errors:\n" d.bibtex).2 bs hbib
  replace htshown := htshown ts htex
  rw [htex] at htend
  rw [report]
  revert htend htshown
  rcases groupLines d.base "\nLaTeX errors:\n" d.tex with ⟨shown, crash | ⟨⟩⟩
  · intro htend
    cases htend
  · intro _ htshown
    rw [progressErrors] at htshown hbshown ⊢
    simp only [List.filter_append, List.map_append, htshown, hbshown]

theorem found_iff : d.found = true ↔ d.tex ++ d.bibtex ≠ [] := by
  rw [found, Ne, List.append_eq_nil_iff, ← List.isEmpty_iff, ← List.isEmpty_iff]
  cases d.tex.isEmpty <;> simp

/-! ### Collected diagnostics -/

/-- Whether there is nothing to be read of a log: it is missing, it is a directory or it fails to
be read. -/
def Unread (t : Tree) (here p : Path) (load : Tree → Path → Path → Except LogError (List Entry)) :
    Prop :=
  t.contains here p = false ∨ t.isDirectory here p = true ∨ ∃ e, load t here p = .error e

/-- What the diagnostics `d` of the `document` are in the tree `t`, and how they are shown. -/
structure Merged (t : Tree) (here document : Path) (c : Concordance) (d : Diagnostics) : Prop where
  base : d.base = document.parent
  tex : List.Forall₂ (Entry.Remapped here c)
    (contribution (TexLog.load t here (texLogPath document))) d.tex
  bibtex : d.bibtex = contribution (BibtexLog.load t here (bibtexLogPath document))
  tex_unread (h : Unread t here (texLogPath document) TexLog.load) : d.tex = []
  bibtex_unread (h : Unread t here (bibtexLogPath document) BibtexLog.load) : d.bibtex = []
  found : d.found = true ↔ d.tex ++ d.bibtex ≠ []
  /-- Short lines are shown if the concordance maps nothing or names its source. -/
  shown (hc : c.isEmpty = true ∨ c.inputFile.isSome = true)
    (hl : ∀ e ∈ d.tex ++ d.bibtex, e.line.natAbs < Nat.pow 10 digitLimit) :
    ∃ ls, d.lines = .ok ls ∧
      List.Forall₂ (fun e line => e.format d.base = .ok line) (d.tex ++ d.bibtex) ls ∧
      d.report.2 = .ok () ∧ progressErrors d.report.1 = ls.map (· ++ "\n")
  /-- With any concordance, what keeps the lines from being shown cuts the report short. -/
  alike : d.report.2 = d.lines.map fun _ => ()

/-- What is collected are the contributions of the two logs. -/
theorem result_collect (here document : Path) (c : Concordance) (past : List Note) (t : Tree) :
    (collect here document c past t).result =
      ((contribution (TexLog.load t here (texLogPath document))).mapM (Entry.remap here c)).map
        fun tex => ⟨document.parent, tex,
          contribution (BibtexLog.load t here (bibtexLogPath document))⟩ := by
  have htex past : (readEntries here (texLogPath document) TexLog.load past t).result =
      contribution (TexLog.load t here (texLogPath document)) :=
    result_readEntries TexLog.exists_read_of_load past
  have hbib past : (readEntries here (bibtexLogPath document) BibtexLog.load past t).result =
      contribution (BibtexLog.load t here (bibtexLogPath document)) :=
    result_readEntries BibtexLog.exists_read_of_load past
  simp only [collect, Work.bind_apply, htex, state_readEntries]
  cases (contribution (TexLog.load t here (texLogPath document))).mapM (Entry.remap here c) with
  | error crash => rfl
  | ok tex => simp only [Work.bind_apply, Work.pure_apply, hbib, Except.map]

theorem state_collect (here document : Path) (c : Concordance) (past : List Note) (t : Tree) :
    (collect here document c past t).state = t := by
  simp only [collect, Work.bind_apply, state_readEntries]
  cases (readEntries here (texLogPath document) TexLog.load past t).result.mapM
      (Entry.remap here c) with
  | error crash => rfl
  | ok tex => simp only [Work.bind_apply, Work.pure_apply, state_readEntries]

/-- The entries of diagnostics come from the two logs, those of TeX remapped. -/
theorem eq_of_collect {here document : Path} {c : Concordance} {past : List Note} {t : Tree}
    {d : Diagnostics} (h : (collect here document c past t).result = .ok d) :
    d.base = document.parent ∧
      List.Forall₂ (fun e e' => e.remap here c = .ok e')
        (contribution (TexLog.load t here (texLogPath document))) d.tex ∧
      d.bibtex = contribution (BibtexLog.load t here (bibtexLogPath document)) := by
  rw [result_collect] at h
  cases hm : (contribution (TexLog.load t here (texLogPath document))).mapM
      (Entry.remap here c) with
  | error crash =>
    rw [hm] at h
    cases h
  | ok tex =>
    rw [hm] at h
    cases h
    exact ⟨rfl, forall₂_of_mapM_eq_ok hm, rfl⟩

private theorem file_isSome_of_mem_contribution {r : Except LogError (List Entry)}
    (hr : ∀ {entries}, r = .ok entries → ∀ e ∈ entries, e.file.isSome = true) :
    ∀ e ∈ contribution r, e.file.isSome = true := by
  cases r with
  | error e => simp [contribution, Except.toOption]
  | ok entries => exact hr rfl

/-- Diagnostics that are collected with a concordance that knows its source all have a file. -/
theorem file_isSome_of_collect {here document : Path} {c : Concordance}
    (hc : c.isEmpty = true ∨ c.inputFile.isSome = true) {past : List Note} {t : Tree}
    {d : Diagnostics} (h : (collect here document c past t).result = .ok d) :
    ∀ e ∈ d.tex ++ d.bibtex, e.file.isSome = true := by
  obtain ⟨-, htex, hbib⟩ := eq_of_collect h
  rw [List.forall_mem_append]
  constructor
  · intro e' he'
    obtain ⟨e, he, hr⟩ := exists_of_forall₂_right htex he'
    exact (Entry.remapped_of_remap hr).2.file_isSome hc
      (file_isSome_of_mem_contribution TexLog.file_isSome_of_load e he)
  · rw [hbib]
    exact file_isSome_of_mem_contribution BibtexLog.file_isSome_of_load

/-- Diagnostics cannot be collected only if an entry cannot be compared. -/
theorem not_compared_of_collect {here document : Path} {c : Concordance} {past : List Note}
    {t : Tree} {crash : Crash} (h : (collect here document c past t).result = .error crash) :
    crash = .embeddedNul ∧
      ∃ e ∈ contribution (TexLog.load t here (texLogPath document)), ¬ e.Compared c := by
  rw [result_collect] at h
  cases hm : (contribution (TexLog.load t here (texLogPath document))).mapM
      (Entry.remap here c) with
  | ok tex =>
    rw [hm] at h
    cases h
  | error crash' =>
    rw [hm] at h
    cases h
    obtain ⟨e, he, hc⟩ := exists_of_mapM_eq_error hm
    obtain ⟨hcrash, hn⟩ := Entry.not_compared_of_remap hc
    exact ⟨hcrash, e, he, hn⟩

private theorem merged_of_collect {here document : Path} {c : Concordance} {past : List Note}
    {t : Tree} {d : Diagnostics} (h : (collect here document c past t).result = .ok d) :
    Merged t here document c d := by
  obtain ⟨hbase, htex, hbib⟩ := eq_of_collect h
  constructor
  · exact hbase
  · exact htex.imp fun e e' hr => (Entry.remapped_of_remap hr).2
  · exact hbib
  · intro h
    rw [contribution_of_absent TexLog.exists_read_of_load h] at htex
    exact List.forall₂_nil_left_iff.mp htex
  · intro h
    rw [hbib, contribution_of_absent BibtexLog.exists_read_of_load h]
  · exact found_iff
  · intro hc hl
    have hshow : d.Showable := fun e he => ⟨file_isSome_of_collect hc h e he, hl e he⟩
    obtain ⟨ls, hls⟩ := exists_lines_eq_ok_iff.mpr hshow
    exact ⟨ls, hls, forall₂_of_mapM_eq_ok hls, report_eq_ok_iff.mpr hshow,
      progressErrors_report hls⟩
  · exact report_snd

/-- What is collected: the merged diagnostics, or an error if an entry of the TeX log cannot be
compared with the document of the concordance. -/
inductive Collected (t : Tree) (here document : Path) (c : Concordance) :
    Except Crash Diagnostics → Prop
  | merged {d : Diagnostics}
      (h : ∀ e ∈ contribution (TexLog.load t here (texLogPath document)), e.Compared c)
      (hd : Merged t here document c d) : Collected t here document c (.ok d)
  | refused (h : ∃ e ∈ contribution (TexLog.load t here (texLogPath document)), ¬ e.Compared c) :
      Collected t here document c (.error .embeddedNul)

/-- **Diagnostics are merged** without loss and without duplicates, whatever the two logs are. Only
a NUL in a name that has to be compared keeps them from being collected. -/
theorem merged_collect (here document : Path) (c : Concordance) (past : List Note) (t : Tree) :
    Collected t here document c (collect here document c past t).result := by
  cases hr : (collect here document c past t).result with
  | ok d =>
    obtain ⟨-, htex, -⟩ := eq_of_collect hr
    refine .merged (fun e he => ?_) (merged_of_collect hr)
    obtain ⟨e', -, h⟩ := exists_of_forall₂_right htex.flip he
    exact (Entry.remapped_of_remap h).1
  | error crash =>
    obtain ⟨rfl, hn⟩ := not_compared_of_collect hr
    exact .refused hn

/-- A tree with a TeX log that reports an error in a file. -/
def logged (file : String) : Tree :=
  ((∅ : Tree).write (Path.ofString "/") (Path.ofString "/r.log")
    (utf8Encode ("./" ++ file ++ ":1: m."))).toOption.getD ∅

/-- A concordance of a document that covers its first line and does not name the source. -/
def unnamedSource : Concordance := { outputFile := some (Path.ofString "/r.tex"), lines := [7] }

/-- **Two ways to lose a diagnostic.** An error is found and its line is short, but the concordance
takes its file away, so that it cannot be shown. And an error in a file with a NUL in its name is
not even found, because it cannot be compared with the document of the concordance. -/
theorem report_of_unnamedSource :
    (∃ d, (collect (Path.ofString "/") (Path.ofString "/r.tex") unnamedSource []
        (logged "r.tex")).result = .ok d ∧
      d.tex ++ d.bibtex = [⟨.error, none, 7, "m"⟩] ∧ d.found = true ∧
      d.report.2 = .error .unknownSource ∧ d.lines = .error .unknownSource) ∧
    (TexLog.load (logged "a\x00.tex") (Path.ofString "/") (Path.ofString "/r.log") =
        .ok [⟨.error, some (Path.ofString "/a\x00.tex"), 1, "m"⟩] ∧
      (collect (Path.ofString "/") (Path.ofString "/r.tex") unnamedSource []
        (logged "a\x00.tex")).result = .error .embeddedNul) := by
  refine ⟨⟨⟨Path.ofString "/", [⟨.error, none, 7, "m"⟩], []⟩, ?_⟩, ?_⟩ <;> decide +kernel

end Diagnostics

end Galley
