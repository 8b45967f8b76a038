import Galley.Proofs.Log.Spot
import Galley.Proofs.Log.Structured

/-!
# Wrapped warnings

TeX wraps a long warning onto several lines. `WrappedWarning` is a warning that names its input line
and has been cut at blanks, in its message or in the words for the input line. It is joined again
(`inputLine?_continued`), so a log that starts with it has the entry of the warning first, as a log
of the unwrapped warning has (`entries_of_wrapped`).

There is one exception. The lines behind the first one are read again, as lines of their own, and a
log as a whole fails if one of its lines reports a number that is too long to be read
(`exists_entriesOfLines_eq_ok_iff`).
-/

namespace Galley

open Text

/-! ### Warnings and their lines -/

/-- A warning that names its input line, cut at blanks into the fragments `first` and `others`, of
which only the last may end in a full stop. -/
structure WrappedWarning where
  source : TexLine.WarningSource
  message : List Char
  number : List Char
  first : List Char
  others : List (List Char)
  source_wellFormed : source.WellFormed
  isMessage : IsMessage message
  number_ne_nil : number ≠ []
  isDigit_of_mem : ∀ c ∈ number, isDigit c = true
  joinWith_eq : joinWith [' '] (first :: others) =
    message ++ " on input line ".toList ++ number ++ ['.']
  length_le : others.length ≤ 4
  isFragment : ∀ f ∈ first :: others, f ≠ [] ∧ trim f = f
  no_stop : ∀ f ∈ (first :: others).dropLast, f.getLast? ≠ some '.'

namespace WrappedWarning

variable (w : WrappedWarning)

/-- What stands in front of the message. -/
def opening : List Char := w.source.lead ++ " Warning: ".toList

/-- The lines that TeX prints. -/
def lines : List (List Char) := (w.opening ++ w.first) :: w.others

/-- The one line that the warning would be on otherwise. -/
def unwrapped : List Char :=
  w.opening ++ (w.message ++ " on input line ".toList ++ w.number ++ ['.'])

/-- What the warning means. -/
def entry (mainFile : Path) : Entry :=
  ⟨.warning, some mainFile, digitsValue w.number, String.ofList w.message⟩

end WrappedWarning

namespace TexLog

/-! ### Logs that can be read -/

/-- Whether no line of a log reports a number that is too long to be read. -/
def Readable : List (List Char) → Prop
  | [] => True
  | line :: behind =>
    (∀ number ∈ number? (TexLine.ofChars line) behind, number.length ≤ digitLimit) ∧
      Readable behind

instance decidableReadable : (ls : List (List Char)) → Decidable (Readable ls)
  | [] => inferInstanceAs (Decidable True)
  | line :: behind =>
    have : Decidable (Readable behind) := decidableReadable behind
    inferInstanceAs (Decidable ((∀ number ∈ number? (TexLine.ofChars line) behind,
      number.length ≤ digitLimit) ∧ Readable behind))

private theorem exists_entryOfLine_eq_ok_iff (files : FileStack) {kind : TexLine}
    {behind : List (List Char)} :
    (∃ entry, entryOfLine files kind behind = .ok entry) ↔
      ∀ number ∈ number? kind behind, number.length ≤ digitLimit := by
  obtain ⟨f, -, heq⟩ := exists_entryOfLine_eq files kind behind
  rw [heq]
  cases number? kind behind with
  | none => exact iff_of_true ⟨none, rfl⟩ (by simp)
  | some number =>
    by_cases hlen : number.length ≤ digitLimit
    · have hread : readDigits number = .ok (digitsValue number) := if_pos hlen
      simp only [hread]
      exact iff_of_true ⟨_, rfl⟩ (by simpa using hlen)
    · have hread : readDigits number = .error (.tooLong number.length) := if_neg hlen
      simp only [hread]
      exact iff_of_false (by rintro ⟨_, ⟨⟩⟩) (by simpa using hlen)

/-- A log has entries just if each number that its lines report can be read. -/
theorem exists_entriesOfLines_eq_ok_iff (files : FileStack) {ls : List (List Char)} :
    (∃ es, entriesOfLines files ls = .ok es) ↔ Readable ls := by
  induction ls generalizing files with
  | nil => exact iff_of_true ⟨_, rfl⟩ trivial
  | cons line behind ih =>
    rw [Readable, ← exists_entryOfLine_eq_ok_iff files, ← ih (filesAfter files line)]
    constructor
    · rintro ⟨es, h⟩
      obtain ⟨entry, hentry, h⟩ := exists_of_bind_eq_ok h
      obtain ⟨more, hmore, -⟩ := exists_of_bind_eq_ok h
      exact ⟨⟨entry, hentry⟩, more, hmore⟩
    · rintro ⟨⟨entry, hentry⟩, more, hmore⟩
      rw [entriesOfLines_cons hentry, hmore]
      exact ⟨_, rfl⟩

/-! ### Joining the fragments -/

/-- Fragments are joined up to the full stop at the end of the last one. The induction is on the
fragments that are left; the text in front of them ends as the fragment before does. -/
private theorem continued_eq_joinWith {limit : Nat} {text : List Char} {others : List (List Char)}
    (hlen : others.length ≤ limit) (htext : trimRight text = text)
    (hfragment : ∀ f ∈ others, f ≠ [] ∧ trim f = f)
    (hstop : ∀ f ∈ (text :: others).dropLast, f.getLast? ≠ some '.')
    (hend : (joinWith [' '] (text :: others)).getLast? = some '.') (further : List (List Char)) :
    continued limit text (others ++ further) = joinWith [' '] (text :: others) := by
  induction others generalizing limit text with
  | nil =>
    obtain ⟨t, ht⟩ := List.getLast?_eq_some_iff.mp hend
    rw [joinWith] at ht ⊢
    rw [ht, continued_append_stop]
  | cons f others ih =>
    obtain ⟨limit, rfl⟩ : ∃ n, limit = n + 1 := Nat.exists_eq_add_one_of_ne_zero (by
      rintro rfl
      cases hlen)
    rw [List.forall_mem_cons] at hfragment
    obtain ⟨⟨hne, hf⟩, hothers⟩ := hfragment
    rw [List.dropLast_cons_cons, List.forall_mem_cons] at hstop
    have hlast : (text ++ ' ' :: f).getLast? = f.getLast? := by
      obtain ⟨c, hc⟩ := Option.isSome_iff_exists.mp (List.getLast?_isSome.mpr hne)
      rw [List.getLast?_append, List.getLast?_cons, hc]
      rfl
    have hgo : (endsWithStop text || (trim f).isEmpty) = false := by
      rw [endsWithStop, htext, hf, Bool.or_eq_false_iff]
      exact ⟨beq_false_of_ne hstop.1, List.isEmpty_eq_false_iff.mpr hne⟩
    have hjoin : joinWith [' '] ((text ++ ' ' :: f) :: others) =
        joinWith [' '] (text :: f :: others) := calc
      joinWith [' '] ((text ++ ([' '] ++ f)) :: others)
      _ = text ++ ([' '] ++ joinWith [' '] (f :: others)) := by
        rw [joinWith_append_cons, joinWith_append_cons]
      _ = joinWith [' '] (text :: f :: others) := (List.append_assoc _ _ _).symm
    have htext' : trimRight (text ++ ' ' :: f) = text ++ ' ' :: f := by
      rw [trimRight_eq_self_iff, hlast]
      exact (trim_eq_self_iff.mp hf).2
    have hstop' : ∀ g ∈ ((text ++ ' ' :: f) :: others).dropLast, g.getLast? ≠ some '.' := by
      cases others with
      | nil => simp
      | cons g others =>
        rw [List.dropLast_cons_cons, List.forall_mem_cons] at hstop ⊢
        rw [hlast]
        exact hstop.2
    rw [List.cons_append, continued, hgo, if_neg Bool.false_ne_true, htext, hf,
      ih (Nat.le_of_succ_le_succ hlen) htext' hothers hstop' (hjoin ▸ hend), hjoin]

end TexLog

/-! ### Reading a wrapped warning -/

private theorem TexLine.WarningSource.WellFormed.isLine_lead {source : WarningSource}
    (h : source.WellFormed) : IsLine source.lead := by
  cases source with
  | latex => decide
  | package name | documentClass name =>
    obtain ⟨-, hn⟩ := h
    exact isLine_append.mpr ⟨by decide, fun c hc => isLineBreak_of_isNameChar (hn c hc)⟩

namespace WrappedWarning

variable (w : WrappedWarning)

/-- The warning on one line, as a single fragment. -/
def onOneLine : WrappedWarning where
  source := w.source
  message := w.message
  number := w.number
  first := w.message ++ " on input line ".toList ++ w.number ++ ['.']
  others := []
  source_wellFormed := w.source_wellFormed
  isMessage := w.isMessage
  number_ne_nil := w.number_ne_nil
  isDigit_of_mem := w.isDigit_of_mem
  joinWith_eq := rfl
  length_le := Nat.zero_le 4
  isFragment := by
    rw [List.forall_mem_singleton]
    refine ⟨by simp, trim_eq_self_iff.mpr ⟨?_, ?_⟩⟩
    · rw [List.append_assoc, List.append_assoc]
      exact w.isMessage.head?_append _
    · rw [List.getLast?_concat]
      rintro c ⟨⟩
      decide
  no_stop := by simp

theorem inputLine?_continued (further : List (List Char)) :
    TexLine.inputLine? (TexLog.continued TexLog.continuationLimit w.first (w.others ++ further)) =
      some (w.message, w.number) := by
  have hfragment := w.isFragment
  rw [List.forall_mem_cons] at hfragment
  have htrim : trimRight w.first = w.first :=
    trimRight_eq_self_iff.mpr (trim_eq_self_iff.mp hfragment.1.2).2
  have hend : (joinWith [' '] (w.first :: w.others)).getLast? = some '.' := by
    rw [w.joinWith_eq, List.getLast?_concat]
  have hlen : w.others.length ≤ TexLog.continuationLimit := w.length_le
  rw [TexLog.continued_eq_joinWith hlen htrim hfragment.2 w.no_stop hend, w.joinWith_eq]
  exact TexLine.inputLine?_append w.number_ne_nil w.isDigit_of_mem
    (trim_eq_self_iff.mp w.isMessage.trimmed).2

private theorem ofChars_first : TexLine.ofChars (w.opening ++ w.first) = .warning w.first := by
  rw [opening, List.append_assoc]
  exact TexLine.ofChars_warning w.source_wellFormed (w.isFragment _ List.mem_cons_self).1

/-- A number that cannot be read makes the log unreadable. -/
private theorem length_number_le {further : List (List Char)}
    (h : TexLog.Readable (w.lines ++ further)) : w.number.length ≤ digitLimit := by
  rw [lines, List.cons_append] at h
  refine h.1 w.number ?_
  rw [ofChars_first, TexLog.number?, inputLine?_continued]
  rfl

/-- The fragments behind the first one are lines of their own again. -/
private theorem entriesOfLines_lines (h : w.number.length ≤ digitLimit) (files : FileStack)
    (further : List (List Char)) :
    TexLog.entriesOfLines files (w.lines ++ further) =
      (w.entry files.current :: ·) <$> TexLog.entriesOfLines files (w.others ++ further) := by
  have hentry : TexLog.entryOfLine files (.warning w.first) (w.others ++ further) =
      .ok (some (w.entry files.current)) := by
    have hread : readDigits w.number = .ok (digitsValue w.number) := if_pos h
    rw [TexLog.entryOfLine, inputLine?_continued]
    simp only [hread, w.isMessage.cleanMessage_eq]
    rfl
  rw [lines, List.cons_append, TexLog.entriesOfLines_report w.ofChars_first (by simp) hentry]
  rfl

private theorem isLine_unwrapped : IsLine w.unwrapped := by
  simp only [unwrapped, opening, isLine_append]
  exact ⟨⟨w.source_wellFormed.isLine_lead, by decide⟩, ⟨⟨w.isMessage.isLine, by decide⟩,
    isLine_of_isDigit w.isDigit_of_mem⟩, by decide⟩

private theorem entries_unwrapped (h : w.number.length ≤ digitLimit) (baseDir mainFile : Path) :
    TexLog.entries w.unwrapped baseDir mainFile = .ok [w.entry mainFile] := by
  have hread := w.onOneLine.entriesOfLines_lines h { baseDir, mainFile } []
  rw [TexLog.entries, lines_eq_singleton w.isLine_unwrapped (by simp [unwrapped])]
  exact hread

end WrappedWarning

/-! ### The main result -/

namespace TexLog

/-- **Wrapping a warning does not change it**: a log that starts with the lines of a wrapped warning
has the entry of the unwrapped one first, unless one of its lines reports a number that is too long
to be read. Then the log cannot be read at all. -/
theorem entries_of_wrapped (w : WrappedWarning) {text : List Char} {further : List (List Char)}
    (h : lines text = w.lines ++ further) (baseDir mainFile : Path) :
    (Readable (lines text) →
      entries w.unwrapped baseDir mainFile = .ok [w.entry mainFile] ∧
        ∃ more, entries text baseDir mainFile = .ok (w.entry mainFile :: more)) ∧
      (¬ Readable (lines text) → ∃ e, entries text baseDir mainFile = .error e) := by
  constructor
  · intro hr
    have hlen : w.number.length ≤ digitLimit := w.length_number_le (h ▸ hr)
    refine ⟨w.entries_unwrapped hlen baseDir mainFile, ?_⟩
    obtain ⟨es, hes⟩ := (exists_entriesOfLines_eq_ok_iff { baseDir, mainFile }).mpr hr
    rw [entries, hes]
    rw [h, w.entriesOfLines_lines hlen] at hes
    cases hmore : entriesOfLines { baseDir, mainFile } (w.others ++ further) with
    | error e =>
      rw [hmore] at hes
      cases hes
    | ok more =>
      rw [hmore] at hes
      exact ⟨more, hes.symm⟩
  · intro hr
    cases he : entries text baseDir mainFile with
    | error e => exact ⟨e, rfl⟩
    | ok es => exact absurd ((exists_entriesOfLines_eq_ok_iff _).mp ⟨es, he⟩) hr

/-- A warning of a package on five lines, the words for its input line among what is cut. -/
def citationWarning : WrappedWarning where
  source := .package "natbib".toList
  message := "Citation knuth on page 3 undefined".toList
  number := "12".toList
  first := "Citation".toList
  others := ["knuth on page".toList, "3 undefined on".toList, "input".toList, "line 12.".toList]
  source_wellFormed := by decide
  isMessage := by decide
  number_ne_nil := by decide
  isDigit_of_mem := by decide
  joinWith_eq := by decide
  length_le := by decide
  isFragment := by decide
  no_stop := by decide

/-- The log of this warning, and the end of a file. -/
def citationLog : List Char := joinWith ['\n'] (citationWarning.lines ++ [[')']])

theorem entries_of_wrapped_citation :
    lines citationLog = citationWarning.lines ++ [[')']] ∧ Readable (lines citationLog) ∧
      ∃ more, entries citationLog (Path.ofString "/doc") (Path.ofString "/doc/main.tex") =
        .ok (⟨.warning, some (Path.ofString "/doc/main.tex"), 12,
          "Citation knuth on page 3 undefined"⟩ :: more) := by
  have hlines : lines citationLog = citationWarning.lines ++ [[')']] := by decide +kernel
  have hread : Readable (lines citationLog) := by decide +kernel
  have hentry : citationWarning.entry (Path.ofString "/doc/main.tex") = ⟨.warning,
      some (Path.ofString "/doc/main.tex"), 12, "Citation knuth on page 3 undefined"⟩ := by
    decide +kernel
  exact ⟨hlines, hread,
    hentry ▸ ((entries_of_wrapped citationWarning hlines _ _).1 hread).2⟩

/-! ### A number that is too long -/

/-- A warning whose second line starts like an error in a file, with `digits` for its number. -/
def misleadingWarning (digits : List Char) (hd : ∀ c ∈ digits, isDigit c = true) :
    WrappedWarning where
  source := .latex
  message := "see a.tex:".toList ++ (digits ++ ": b".toList)
  number := ['5']
  first := "see".toList
  others := ["a.tex:".toList ++ (digits ++ ": b on input line 5.".toList)]
  source_wellFormed := trivial
  isMessage := by
    refine ⟨List.cons_ne_nil _ _, ?_, trim_eq_self_iff.mpr ⟨?_, ?_⟩, ?_⟩
    · rw [isLine_append, isLine_append]
      exact ⟨by decide, isLine_of_isDigit hd, by decide⟩
    · rintro c ⟨⟩
      decide
    · rw [List.getLast?_append, List.getLast?_append]
      rintro c ⟨⟩
      decide
    · rw [List.getLast?_append, List.getLast?_append]
      nofun
  number_ne_nil := List.cons_ne_nil _ _
  isDigit_of_mem := by decide
  joinWith_eq := by simp [joinWith]
  length_le := by simp
  isFragment := by
    rw [List.forall_mem_cons, List.forall_mem_singleton]
    refine ⟨by decide, List.cons_ne_nil _ _, trim_eq_self_iff.mpr ⟨?_, ?_⟩⟩
    · rintro c ⟨⟩
      decide
    · rw [List.getLast?_append, List.getLast?_append]
      rintro c ⟨⟩
      decide
  no_stop := by simp

private theorem entriesOfLines_misleading {digits : List Char} (hd : ∀ c ∈ digits, isDigit c = true)
    (hlen : digitLimit < digits.length) (files : FileStack) :
    entriesOfLines files (misleadingWarning digits hd).lines =
      .error (.tooLong digits.length) := by
  have hne : digits ≠ [] := by
    rintro rfl
    cases hlen
  have hkind : TexLine.ofChars ("a.tex:".toList ++ (digits ++ ": b on input line 5.".toList)) =
      .fileError "a.tex".toList digits "b on input line 5.".toList := by
    have hname : TexLine.isFileName "a.tex".toList = true := by decide
    have hmessage : "b on input line 5.".toList ≠ [] := by decide
    exact TexLine.ofChars_of_isFileName hname (by decide) hne hd hmessage
  have hread : readDigits digits = .error (.tooLong digits.length) :=
    if_neg (Nat.not_le.mpr hlen)
  have hothers : entriesOfLines files (misleadingWarning digits hd).others =
      .error (.tooLong digits.length) := by
    rw [misleadingWarning, entriesOfLines, hkind, entryOfLine, hread]
    rfl
  have hnumber : ['5'].length ≤ digitLimit := by decide
  have hwarning := (misleadingWarning digits hd).entriesOfLines_lines hnumber files []
  rw [List.append_nil, List.append_nil, hothers] at hwarning
  exact hwarning

/-- A digit more than can be read. -/
def manyOnes : List Char := List.replicate 4301 '1'

private theorem isDigit_of_mem_manyOnes : ∀ c ∈ manyOnes, isDigit c = true := by
  intro c hc
  rw [List.eq_of_mem_replicate hc]
  decide

/-- The log of a warning that names line 5. -/
def misleadingLog : List Char :=
  joinWith ['\n'] (misleadingWarning manyOnes isDigit_of_mem_manyOnes).lines

/-- **Wrapping a warning may make a log unreadable.** -/
theorem entries_misleadingLog :
    lines misleadingLog = (misleadingWarning manyOnes isDigit_of_mem_manyOnes).lines ∧
      entries (misleadingWarning manyOnes isDigit_of_mem_manyOnes).unwrapped
          (Path.ofString "/doc") (Path.ofString "/doc/main.tex") =
        .ok [⟨.warning, some (Path.ofString "/doc/main.tex"), 5,
          String.ofList ("see a.tex:".toList ++ (manyOnes ++ ": b".toList))⟩] ∧
      entries misleadingLog (Path.ofString "/doc") (Path.ofString "/doc/main.tex") =
        .error (.tooLong 4301) := by
  have hlines : lines misleadingLog =
      (misleadingWarning manyOnes isDigit_of_mem_manyOnes).lines := by
    have hline : ∀ l ∈ (misleadingWarning manyOnes isDigit_of_mem_manyOnes).lines, IsLine l := by
      rw [WrappedWarning.lines, misleadingWarning, List.forall_mem_cons, List.forall_mem_singleton]
      refine ⟨by decide, ?_⟩
      rw [isLine_append, isLine_append]
      exact ⟨by decide, isLine_of_isDigit isDigit_of_mem_manyOnes, by decide⟩
    rw [misleadingLog, lines_joinWith hline]
    exact if_neg (by simp [misleadingWarning, WrappedWarning.lines])
  have hlen : manyOnes.length = 4301 := List.length_replicate
  have herror := entriesOfLines_misleading isDigit_of_mem_manyOnes (by rw [hlen]; decide)
    { baseDir := Path.ofString "/doc", mainFile := Path.ofString "/doc/main.tex" }
  rw [hlen] at herror
  refine ⟨hlines, ?_, ?_⟩
  · exact WrappedWarning.entries_unwrapped _ (by decide) _ _
  · rw [entries, hlines]
    exact herror

end TexLog

end Galley
