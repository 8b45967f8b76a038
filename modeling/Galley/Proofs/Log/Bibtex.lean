import Galley.Log.Bibtex
import Galley.Proofs.Log.TexLine
import Galley.Proofs.Text.Lines
import Mathlib.Data.List.Infix
import Mathlib.Tactic.MkIffOfInductiveProp

/-!
# Logs made of records

BibTeX writes one record behind the other: errors, with their place on the same line or on the
next, warnings, with their place on the next line or without one, and lines that report nothing.
`Record.lines` prints a record and `Record.meaning?` is the entry that it means, if it means one.
`entries_of_records` is the main result: reading printed records gives what they mean.

A line is looked at three times: as itself, as the line before an error and as the line behind a
warning. What carries the induction over the records is that no record can be robbed by its
neighbours: the first line of a record is no place of a warning (`Record.no_location`), so that a
warning in front of it stays without one, and only an error whose place stands alone asks for the
line before it.
-/

namespace Galley.BibtexLog

open Text

/-! ### Records and their print -/

/-- A record of a log. Numbers are kept as they are written. -/
inductive Record where
  /-- An error with its place on the same line. -/
  | error (message line file : List Char)
  /-- An error with its place on the next line. -/
  | splitError (message line file : List Char)
  | warning (message line file : List Char)
  /-- A warning that names no place. -/
  | unplaced (message : List Char)
  /-- A line that reports nothing. -/
  | noise (text : List Char)

/-- How a place is written behind its dashes. -/
def placeText (line file : List Char) : List Char :=
  "line ".toList ++ (line ++ (" of file ".toList ++ file))

namespace Record

/-- The lines of a record. -/
def lines : Record → List (List Char)
  | .error m n f => [m ++ ("---".toList ++ placeText n f)]
  | .splitError m n f => [m, "---".toList ++ placeText n f]
  | .warning m n f => ["Warning--".toList ++ m, "--".toList ++ placeText n f]
  | .unplaced m => ["Warning--".toList ++ m]
  | .noise text => [text]

/-- The entry that a record means, if it means one. -/
def meaning? (baseDir : Path) : Record → Option Entry
  | .error m n f | .splitError m n f =>
    some ⟨.error, some (baseDir.resolveIn (String.ofList f)), digitsValue n, String.ofList m⟩
  | .warning m n f =>
    some ⟨.warning, some (baseDir.resolveIn (String.ofList f)), digitsValue n, String.ofList m⟩
  | .unplaced _ => none
  | .noise _ => none

end Record

/-- Whether a text can be the message or the file of a record: it is one trimmed line, and it does
not look as if a place were named in it. -/
@[mk_iff]
structure IsPhrase (s : List Char) : Prop where
  ne_nil : s ≠ []
  isLine : IsLine s
  trimmed : trim s = s
  no_place : ¬ "--line ".toList <:+: s

instance (s : List Char) : Decidable (IsPhrase s) := decidable_of_iff _ (isPhrase_iff s).symm

/-- Whether a record reads back as what it is. -/
def Record.WellFormed : Record → Prop
  | .error m n f => IsPhrase m ∧ IsNumeral n ∧ IsPhrase f
  | .splitError m n f => IsPhrase m ∧ ¬ "Warning--".toList <+: m ∧ IsNumeral n ∧ IsPhrase f
  | .warning m n f => IsPhrase m ∧ m.head? ≠ some '-' ∧ IsNumeral n ∧ IsPhrase f
  | .unplaced m => IsPhrase m ∧ m.head? ≠ some '-'
  | .noise text => IsLine text ∧ errorPlace? text = none ∧ warning? text = none ∧
      location? "--".toList text = none

instance Record.decidableWellFormed : (r : Record) → Decidable r.WellFormed
  | .error m n f => inferInstanceAs (Decidable (IsPhrase m ∧ IsNumeral n ∧ IsPhrase f))
  | .splitError m n f => inferInstanceAs
      (Decidable (IsPhrase m ∧ ¬ "Warning--".toList <+: m ∧ IsNumeral n ∧ IsPhrase f))
  | .warning m n f => inferInstanceAs
      (Decidable (IsPhrase m ∧ m.head? ≠ some '-' ∧ IsNumeral n ∧ IsPhrase f))
  | .unplaced m => inferInstanceAs (Decidable (IsPhrase m ∧ m.head? ≠ some '-'))
  | .noise text => inferInstanceAs (Decidable (IsLine text ∧ errorPlace? text = none ∧
      warning? text = none ∧ location? "--".toList text = none))

/-! ### Places -/

/-- Behind its dashes a place is read as it is written. -/
private theorem location?_append (lead : List Char) {n f : List Char} (hn : IsNumeral n)
    (hf : f ≠ []) : location? lead (lead ++ placeText n f) = some ⟨n, f⟩ := by
  obtain ⟨htake, hdrop⟩ := hn.takeWhile_append_cons (c := ' ') (r := "of file ".toList ++ f)
    (by decide)
  have hlead : dropLead? (lead ++ "line ".toList) (lead ++ placeText n f) =
      some (n ++ ' ' :: ("of file ".toList ++ f)) := by
    have hsplit : lead ++ placeText n f =
        lead ++ "line ".toList ++ (n ++ (" of file ".toList ++ f)) := (List.append_assoc ..).symm
    rw [hsplit]
    exact dropLead?_append _ _
  have hfile : dropLead? " of file ".toList (' ' :: ("of file ".toList ++ f)) = some f :=
    dropLead?_append " of file ".toList f
  rw [location?, hlead]
  simp only [Option.bind_eq_bind, Option.bind_some, htake, hdrop, hfile,
    TexLine.guard_of hn.ne_nil, TexLine.guard_of hf]
  rfl

/-- What does not start like a place is none. -/
private theorem location?_eq_none {lead s : List Char} (h : ¬ lead ++ "line ".toList <+: s) :
    location? lead s = none := by
  rw [location?, dropLead?_eq_none h]
  rfl

/-- Of several places the last counts, whatever stands in front of it. -/
private theorem errorPlace?_append {s before : List Char} {place : Location}
    (h : errorPlace? s = some (before, place)) (front : List Char) :
    errorPlace? (front ++ s) = some (front ++ before, place) := by
  induction front with
  | nil => exact h
  | cons c front ih => rw [List.cons_append, errorPlace?, ih, List.cons_append]

/-- A character that no place starts at. -/
private theorem errorPlace?_cons_eq_none {c : Char} {s : List Char}
    (hc : location? "---".toList (c :: s) = none) (hs : errorPlace? s = none) :
    errorPlace? (c :: s) = none := by
  have hc' : location? ['-', '-', '-'] (c :: s) = none := hc
  rw [errorPlace?, hs]
  simp only [hc', Option.map_none]

private theorem errorPlace?_append_eq_none (front : List Char) {s : List Char}
    (hfront : '-' ∉ front) (hs : errorPlace? s = none) : errorPlace? (front ++ s) = none := by
  induction front with
  | nil => exact hs
  | cons c front ih =>
    rw [List.mem_cons, not_or] at hfront
    refine errorPlace?_cons_eq_none (location?_eq_none fun hprefix => ?_) (ih hfront.2)
    exact hfront.1 (List.cons_prefix_cons.mp hprefix).1

/-- Without the words of a place there is none. -/
private theorem errorPlace?_eq_none {s : List Char} (h : ¬ "--line ".toList <:+: s) :
    errorPlace? s = none := by
  induction s with
  | nil => rfl
  | cons c s ih =>
    have hrest : ¬ "--line ".toList <:+: s := fun hs => h (List.infix_cons hs)
    refine errorPlace?_cons_eq_none (location?_eq_none fun hprefix => ?_) (ih hrest)
    -- two of the three dashes start the words
    have hwords : "--line ".toList <+: s := (List.cons_prefix_cons.mp hprefix).2
    exact hrest hwords.isInfix

/-- With two dashes only, a place is not that of an error. -/
private theorem errorPlace?_warningPlace {n f : List Char} (hn : IsNumeral n) (hf : IsPhrase f) :
    errorPlace? ("--".toList ++ placeText n f) = none := by
  have hnumber : '-' ∉ n := hn.notMem (by decide)
  have hfront : '-' ∉ "line ".toList ++ (n ++ " of file ".toList) := by simp [hnumber]
  have hplace : errorPlace? (placeText n f) = none := by
    have hsplit : placeText n f = ("line ".toList ++ (n ++ " of file ".toList)) ++ f := by
      simp [placeText]
    rw [hsplit]
    exact errorPlace?_append_eq_none _ hfront (errorPlace?_eq_none hf.no_place)
  exact errorPlace?_cons_eq_none rfl (errorPlace?_cons_eq_none rfl hplace)

private theorem errorPlace?_place {n f : List Char} (hn : IsNumeral n) (hf : IsPhrase f) :
    errorPlace? ("---".toList ++ placeText n f) = some ([], ⟨n, f⟩) := by
  have hrest : errorPlace? ('-' :: '-' :: placeText n f) = none := errorPlace?_warningPlace hn hf
  have hhere : location? ['-', '-', '-'] ('-' :: '-' :: '-' :: placeText n f) = some ⟨n, f⟩ :=
    location?_append "---".toList hn hf.ne_nil
  change errorPlace? ('-' :: '-' :: '-' :: placeText n f) = some ([], ⟨n, f⟩)
  rw [errorPlace?, hrest]
  simp only [hhere, Option.map_some]

/-- The two dashes of a warning and its message make no place of an error. -/
private theorem errorPlace?_warning {m : List Char} (hm : IsPhrase m) (hd : m.head? ≠ some '-') :
    errorPlace? ("Warning--".toList ++ m) = none := by
  have hnone : ∀ s : List Char, s.head? ≠ some '-' → ¬ ['-'] <+: s := by
    rintro s hs ⟨r, rfl⟩
    exact hs rfl
  have hsecond : errorPlace? ('-' :: m) = none := by
    refine errorPlace?_cons_eq_none (location?_eq_none fun hprefix => ?_)
      (errorPlace?_eq_none hm.no_place)
    have hdash : "--line ".toList <+: m := (List.cons_prefix_cons.mp hprefix).2
    exact hm.no_place hdash.isInfix
  have hfirst : errorPlace? ('-' :: '-' :: m) = none := by
    refine errorPlace?_cons_eq_none (location?_eq_none fun hprefix => ?_) hsecond
    have hdash : "-line ".toList <+: m :=
      (List.cons_prefix_cons.mp (List.cons_prefix_cons.mp hprefix).2).2
    exact hnone m hd ((List.prefix_append ['-'] "line ".toList).trans hdash)
  exact errorPlace?_append_eq_none "Warning".toList (by decide) hfirst

private theorem warning?_append {m : List Char} (hm : m ≠ []) :
    warning? ("Warning--".toList ++ m) = some m := by
  rw [warning?, dropLead?_append]
  simp only [Option.bind_eq_bind, Option.bind_some, TexLine.guard_of hm]
  rfl

private theorem warning?_eq_none {s : List Char} (h : ¬ "Warning--".toList <+: s) : warning? s =
    none := by
  rw [warning?, dropLead?_eq_none h]
  rfl

/-! ### Reading lines -/

section Lines

variable {baseDir : Path} {previous line : List Char} {behind : List (List Char)}

private theorem entriesOfLines_cons {entry : Option Entry}
    (h : entryOfLine baseDir previous line behind.head? = .ok entry) :
    entriesOfLines baseDir previous (line :: behind) =
      (entry.toList ++ ·) <$> entriesOfLines baseDir line behind := by
  rw [entriesOfLines, h]
  rfl

/-- A line that is neither an error nor a warning makes no entry. -/
private theorem entriesOfLines_noise (he : errorPlace? line = none) (hw : warning? line = none) :
    entriesOfLines baseDir previous (line :: behind) = entriesOfLines baseDir line behind := by
  have hentry : entryOfLine baseDir previous line behind.head? = .ok none := by
    rw [entryOfLine, he, hw]
    rfl
  rw [entriesOfLines_cons hentry]
  exact id_map _

/-- A warning without a place behind it makes no entry. -/
private theorem entriesOfLines_unplaced (he : errorPlace? line = none)
    (hb : behind.head?.bind (location? "--".toList) = none) :
    entriesOfLines baseDir previous (line :: behind) = entriesOfLines baseDir line behind := by
  have hbehind : behind.head?.bind (location? ['-', '-']) = none := hb
  have hentry : entryOfLine baseDir previous line behind.head? = .ok none := by
    rw [entryOfLine, he, hbehind]
    cases warning? line <;> rfl
  rw [entriesOfLines_cons hentry]
  exact id_map _

private theorem entryAt_eq {kind : EntryKind} {n f m : List Char} (hn : IsNumeral n)
    (hf : IsPhrase f) : entryAt baseDir kind ⟨n, f⟩ m =
      .ok ⟨kind, some (baseDir.resolveIn (String.ofList f)), digitsValue n, String.ofList m⟩ := by
  rw [entryAt, hn.readDigits_eq, hf.trimmed]
  rfl

/-- An empty line at the end changes nothing. -/
private theorem entriesOfLines_append_empty (ls : List (List Char)) :
    entriesOfLines baseDir previous (ls ++ [[]]) = entriesOfLines baseDir previous ls := by
  induction ls generalizing previous with
  | nil => exact entriesOfLines_noise rfl rfl
  | cons l ls ih =>
    have hhead : entryOfLine baseDir previous l (ls ++ [[]]).head? =
        entryOfLine baseDir previous l ls.head? := by
      cases ls with
      | cons l' ls => rfl
      | nil =>
        rw [entryOfLine, entryOfLine]
        split
        · rfl
        · cases warning? l <;> rfl
    rw [List.cons_append, entriesOfLines, entriesOfLines, hhead, ih]

end Lines

/-! ### Reading records -/

namespace Record

variable {r : Record}

/-- The words of a place end before the dashes of an error start. -/
private theorem length_le_of_prefix_dashes {m rest : List Char} (hm : m ≠ [])
    (h : "--line ".toList <+: m ++ ("---".toList ++ rest)) :
    "--line ".toList.length ≤ m.length := by
  by_contra hshort
  have hlt : m.length < 7 := Nat.lt_of_not_le hshort
  have hne : m.length ≠ 0 := fun h => hm (List.length_eq_zero_iff.mp h)
  have hword (i : ℕ) (hi : i < 7) :
      "--line ".toList[i]? = (m ++ ("---".toList ++ rest))[i]? :=
    (List.getElem?_eq_getElem hi).trans (List.prefix_iff_getElem?.mp h i hi).symm
  have hdash (i : ℕ) (hi : i < 3) : (m ++ ("---".toList ++ rest))[m.length + i]? = some '-' := by
    rw [List.getElem?_append_right (Nat.le_add_right _ _), Nat.add_sub_cancel_left,
      List.getElem?_append_left hi]
    exact (by decide : ∀ i < 3, "---".toList[i]? = some '-') i hi
  -- behind the first character the words have only one dash
  have honly : ∀ i < 7, i ≠ 0 → "--line ".toList[i]? = some '-' → i = 1 := by decide
  have hfirst := honly m.length hlt hne ((hword _ hlt).trans (hdash 0 (by omega)))
  have hsecond := honly (m.length + 1) (by omega) (by omega)
    ((hword _ (by omega)).trans (hdash 1 (by omega)))
  omega

private theorem lines_ne_nil (r : Record) : r.lines ≠ [] := by
  cases r <;> exact List.cons_ne_nil _ _

/-- The first line of a record is no place of a warning in front of it. -/
theorem no_location (hr : r.WellFormed) : r.lines.head?.bind (location? "--".toList) = none := by
  cases r with
  | error m n f =>
    obtain ⟨hm, -, -⟩ := hr
    refine location?_eq_none fun hprefix => hm.no_place ?_
    have hlong : "--line ".toList.length ≤ m.length :=
      length_le_of_prefix_dashes hm.ne_nil hprefix
    exact (List.prefix_of_prefix_length_le hprefix (List.prefix_append m _) hlong).isInfix
  | splitError m n f => exact location?_eq_none fun hprefix => hr.1.no_place hprefix.isInfix
  | warning m n f | unplaced m => rfl
  | noise text => exact hr.2.2.2

/-- A record adds the entry that it means, whatever stands in front of it and unless the line
behind it is the place of a warning. -/
private theorem entriesOfLines_lines (hr : r.WellFormed) (baseDir : Path) (previous : List Char)
    {behind : List (List Char)} (hb : behind.head?.bind (location? "--".toList) = none) :
    ∃ last, entriesOfLines baseDir previous (r.lines ++ behind) =
      ((r.meaning? baseDir).toList ++ ·) <$> entriesOfLines baseDir last behind := by
  cases r with
  | error m n f =>
    obtain ⟨hm, hn, hf⟩ := hr
    have hplace := errorPlace?_append (errorPlace?_place hn hf) m
    have hentry : entryOfLine baseDir previous (m ++ ("---".toList ++ placeText n f)) behind.head? =
        .ok ((Record.error m n f).meaning? baseDir) := by
      have hmessage : errorMessage previous m = m := by
        rw [errorMessage, hm.trimmed, List.isEmpty_eq_false_iff.mpr hm.ne_nil]
        rfl
      rw [entryOfLine, hplace]
      simp only [List.append_nil, hmessage, entryAt_eq hn hf]
      rfl
    exact ⟨_, entriesOfLines_cons hentry⟩
  | splitError m n f =>
    obtain ⟨hm, hw, hn, hf⟩ := hr
    have hentry : entryOfLine baseDir m ("---".toList ++ placeText n f) behind.head? =
        .ok ((Record.splitError m n f).meaning? baseDir) := by
      have hmessage : errorMessage m [] = m := hm.trimmed
      rw [entryOfLine, errorPlace?_place hn hf]
      simp only [hmessage, entryAt_eq hn hf]
      rfl
    refine ⟨_, (entriesOfLines_noise ?_ ?_).trans (entriesOfLines_cons hentry)⟩
    · exact errorPlace?_eq_none hm.no_place
    · exact warning?_eq_none hw
  | warning m n f =>
    obtain ⟨hm, hd, hn, hf⟩ := hr
    have hentry : entryOfLine baseDir previous ("Warning--".toList ++ m)
        (some ("--".toList ++ placeText n f)) =
        .ok ((Record.warning m n f).meaning? baseDir) := by
      have hlocation : (some ("--".toList ++ placeText n f)).bind (location? ['-', '-']) =
          some ⟨n, f⟩ := location?_append "--".toList hn hf.ne_nil
      rw [entryOfLine, errorPlace?_warning hm hd, warning?_append hm.ne_nil, hlocation]
      simp only [hm.trimmed, entryAt_eq hn hf]
      rfl
    have hplace : entriesOfLines baseDir ("Warning--".toList ++ m)
        (("--".toList ++ placeText n f) :: behind) = entriesOfLines baseDir _ behind :=
      entriesOfLines_noise (errorPlace?_warningPlace hn hf) rfl
    refine ⟨"--".toList ++ placeText n f, (entriesOfLines_cons hentry).trans ?_⟩
    exact congrArg _ hplace
  | unplaced m =>
    obtain ⟨hm, hd⟩ := hr
    refine ⟨"Warning--".toList ++ m,
      (entriesOfLines_unplaced (errorPlace?_warning hm hd) hb).trans ?_⟩
    exact (id_map _).symm
  | noise text =>
    obtain ⟨-, he, hw, -⟩ := hr
    refine ⟨text, (entriesOfLines_noise he hw).trans ?_⟩
    exact (id_map _).symm

/-- The lines of records give the entries that the records mean. -/
private theorem entriesOfLines_flatMap {rs : List Record} (h : ∀ r ∈ rs, r.WellFormed)
    (baseDir : Path) (previous : List Char) :
    entriesOfLines baseDir previous (rs.flatMap lines) =
      .ok (rs.filterMap (meaning? baseDir)) := by
  induction rs generalizing previous with
  | nil => rfl
  | cons r rs ih =>
    rw [List.forall_mem_cons] at h
    have hbehind : (rs.flatMap lines).head?.bind (location? "--".toList) = none := by
      cases rs with
      | nil => rfl
      | cons r' rs =>
        have hfirst := no_location (h.2 r' List.mem_cons_self)
        obtain ⟨l, ls, hlines⟩ := List.exists_cons_of_ne_nil r'.lines_ne_nil
        rw [List.flatMap_cons, hlines]
        rwa [hlines] at hfirst
    obtain ⟨last, hread⟩ := entriesOfLines_lines h.1 baseDir previous hbehind
    rw [List.flatMap_cons, hread, ih h.2]
    cases hm : r.meaning? baseDir with
    | none => rw [List.filterMap_cons_none hm]; rfl
    | some e => rw [List.filterMap_cons_some hm]; rfl

private theorem isLine_of_mem_lines (hr : r.WellFormed) : ∀ l ∈ r.lines, IsLine l := by
  have hplace {n f : List Char} (hn : IsNumeral n) (hf : IsPhrase f) : IsLine (placeText n f) := by
    have hnumber : IsLine n := isLine_of_isDigit hn.isDigit_of_mem
    simp only [placeText, isLine_append]
    exact ⟨by decide, hnumber, by decide, hf.isLine⟩
  cases r with
  | error m n f =>
    obtain ⟨hm, hn, hf⟩ := hr
    simp only [lines, List.forall_mem_singleton, isLine_append]
    exact ⟨hm.isLine, by decide, hplace hn hf⟩
  | splitError m n f =>
    obtain ⟨hm, -, hn, hf⟩ := hr
    rw [lines, List.forall_mem_cons, List.forall_mem_singleton, isLine_append]
    exact ⟨hm.isLine, by decide, hplace hn hf⟩
  | warning m n f =>
    obtain ⟨hm, -, hn, hf⟩ := hr
    rw [lines, List.forall_mem_cons, List.forall_mem_singleton, isLine_append, isLine_append]
    exact ⟨⟨by decide, hm.isLine⟩, by decide, hplace hn hf⟩
  | unplaced m =>
    simp only [lines, List.forall_mem_singleton, isLine_append]
    exact ⟨by decide, hr.1.isLine⟩
  | noise text =>
    rw [lines, List.forall_mem_singleton]
    exact hr.1

end Record

/-! ### The main result -/

/-- **Records are read back**: the entries of a printed log are those of the records that name a
place, in order. -/
theorem entries_of_records {rs : List Record} (h : ∀ r ∈ rs, r.WellFormed) (baseDir : Path) :
    entries (joinWith ['\n'] (rs.flatMap Record.lines)) baseDir =
      .ok (rs.filterMap (Record.meaning? baseDir)) := by
  have hread := Record.entriesOfLines_flatMap h baseDir []
  have hlines : ∀ l ∈ rs.flatMap Record.lines, IsLine l := by
    intro l hl
    obtain ⟨r, hr, hl⟩ := List.mem_flatMap.mp hl
    exact Record.isLine_of_mem_lines (h r hr) l hl
  rw [entries, lines_joinWith hlines]
  split
  · next hlast =>
    -- noise that is empty and at the very end leaves no line
    obtain ⟨ls, heq⟩ := List.getLast?_eq_some_iff.mp hlast
    rw [heq, entriesOfLines_append_empty] at hread
    rw [heq, List.dropLast_concat, hread]
  · exact hread

/-- Records of each kind, next to those that could rob them. -/
def sampleRecords : List Record :=
  [.noise "This is BibTeX, Version 0.99d".toList,
    .unplaced "to sort, need author or key in knuth".toList,
    .splitError "I was expecting a `,' or a `\x7d'".toList "4".toList "refs.bib".toList,
    .unplaced "empty year in lamport".toList,
    .error "-".toList "7".toList "../refs.bib".toList,
    .warning "string name \"jan\" is undefined".toList "٩".toList "refs.bib".toList]

theorem entries_of_records_sample :
    (∀ r ∈ sampleRecords, r.WellFormed) ∧
      entries (joinWith ['\n'] (sampleRecords.flatMap Record.lines)) ⟨.root, ["doc", "sub"]⟩ =
        .ok [⟨.error, some ⟨.root, ["doc", "sub", "refs.bib"]⟩, 4,
            "I was expecting a `,' or a `\x7d'"⟩,
          ⟨.error, some ⟨.root, ["doc", "refs.bib"]⟩, 7, "-"⟩,
          ⟨.warning, some ⟨.root, ["doc", "sub", "refs.bib"]⟩, 9,
            "string name \"jan\" is undefined"⟩] := by
  have hrecords : ∀ r ∈ sampleRecords, r.WellFormed := by decide +kernel
  refine ⟨hrecords, (entries_of_records hrecords _).trans ?_⟩
  decide +kernel

end Galley.BibtexLog
