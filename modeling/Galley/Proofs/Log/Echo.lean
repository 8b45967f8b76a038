import Galley.Proofs.Log.Tex
import Galley.Proofs.Log.TexLine
import Galley.Proofs.Text.Lines

/-!
# Text that TeX echoes

The line `l.N` that shows where an error occurred goes on with text of the document. This text is
read like any other line for the files that TeX opens and closes. It can be exchanged in every log
just if its parentheses are balanced and it does not turn the line into an error that names its
file (`isHarmless_iff`).

That nothing else matters is an induction over the lines in front: they see only the number. For
the converse, a parenthesis that is not balanced moves the bottom of the stack of open files, and a
log that closes files behind the line shows where this bottom is (`exists_current_ne`).

Logs in which a warning runs into the line are left out: a warning that does not end in front of it
takes its text in.
-/

namespace Galley.TexLog

open Text

variable {files : FileStack}

/-! ### Lines with places -/

/-- The line that shows the place of an error, with the text that is echoed there. -/
def placeLine (number echo : List Char) : List Char := 'l' :: '.' :: (number ++ echo)

/-- Whether a text can be what is echoed: it stands on one line and does not go on with the
number. -/
structure IsEcho (echo : List Char) : Prop where
  isLine : IsLine echo
  not_isDigit : ∀ c ∈ echo.head?, isDigit c = false

/-- Whether a text that is echoed is taken for nothing else: its parentheses are balanced, and its
line is no error that names its file. -/
structure IsHarmless (number echo : List Char) : Prop where
  isBalanced : balanced 0 echo = true
  no_fileError : TexLine.fileError? (placeLine number echo) = none

/-- Whether a warning comes to its end within the lines behind it. -/
def endsWithin : Nat → List Char → List (List Char) → Bool
  | limit + 1, text, line :: rest =>
    endsWithStop text || (trim line).isEmpty ||
      endsWithin limit (trimRight text ++ ' ' :: trim line) rest
  | _ + 1, text, [] => endsWithStop text
  | 0, _, _ => true

/-- Whether no warning goes on behind the lines. -/
def warningsEnd : List (List Char) → Bool
  | [] => true
  | line :: rest =>
    (match TexLine.ofChars line with
      | .warning message => endsWithin continuationLimit message rest
      | _ => true) && warningsEnd rest

/-- Whether one of two lines can be put in the place of the other in every log in which no warning
runs into it. -/
def Interchangeable (l l' : List Char) : Prop :=
  ∀ (text text' : List Char) (front back : List (List Char)) (baseDir mainFile : Path),
    warningsEnd front = true → lines text = front ++ l :: back →
      lines text' = front ++ l' :: back →
        entries text baseDir mainFile = entries text' baseDir mainFile

/-! ### Lines in front -/

/-- A warning that has ended is not continued. -/
theorem continued_append {limit : Nat} {text : List Char} {front : List (List Char)}
    (h : endsWithin limit text front = true) (behind : List (List Char)) :
    continued limit text (front ++ behind) = continued limit text front := by
  induction limit generalizing text front with
  | zero => simp [continued]
  | succ limit ih =>
    cases front with
    | nil =>
      cases behind with
      | nil => rfl
      | cons line behind =>
        rw [endsWithin] at h
        rw [List.nil_append, continued, h, Bool.true_or, if_pos rfl]
        simp [continued]
    | cons line front =>
      rw [List.cons_append, continued, continued]
      cases hs : endsWithStop text || (trim line).isEmpty with
      | true => rw [if_pos rfl, if_pos rfl]
      | false =>
        rw [endsWithin, hs, Bool.false_or] at h
        rw [if_neg Bool.false_ne_true, if_neg Bool.false_ne_true, ih h]

private theorem findSome?_errorPlace?_congr {l l' : List Char}
    (h : TexLine.errorPlace? l = TexLine.errorPlace? l') (limit : Nat)
    (front back : List (List Char)) :
    ((front ++ l :: back).take limit).findSome? TexLine.errorPlace? =
      ((front ++ l' :: back).take limit).findSome? TexLine.errorPlace? := by
  rw [List.take_append, List.take_append, List.findSome?_append, List.findSome?_append]
  cases limit - front.length with
  | zero => rfl
  | succ k => rw [List.take_succ_cons, List.take_succ_cons, List.findSome?_cons,
      List.findSome?_cons, h]

/-- The lines in front of a plain line see only the place that it names. -/
private theorem entriesOfLines_congr {l l' : List Char}
    (hplace : TexLine.errorPlace? l = TexLine.errorPlace? l')
    (hplain : TexLine.ofChars l = .plain) (hplain' : TexLine.ofChars l' = .plain)
    (hfeed : ∀ files : FileStack, files.feed l = files.feed l') {front : List (List Char)}
    (hfront : warningsEnd front = true) (back : List (List Char)) :
    entriesOfLines files (front ++ l :: back) = entriesOfLines files (front ++ l' :: back) := by
  induction front generalizing files with
  | nil =>
    rw [List.nil_append, List.nil_append, entriesOfLines_plain hplain,
      entriesOfLines_plain hplain', hfeed]
  | cons line front ih =>
    rw [warningsEnd, Bool.and_eq_true] at hfront
    have hentry : entryOfLine files (TexLine.ofChars line) (front ++ l :: back) =
        entryOfLine files (TexLine.ofChars line) (front ++ l' :: back) := by
      cases hline : TexLine.ofChars line with
      | error message =>
        rw [entryOfLine, entryOfLine, findSome?_errorPlace?_congr hplace]
      | warning message =>
        rw [hline] at hfront
        rw [entryOfLine, entryOfLine, continued_append hfront.1, continued_append hfront.1]
      | fileError | badBox | givenUp | plain => rfl
    rw [List.cons_append, List.cons_append, entriesOfLines, entriesOfLines, hentry, ih hfront.2]

/-! ### Harmless echoes -/

section Echo

variable {number echo : List Char}

private theorem errorPlace?_placeLine (hne : number ≠ []) (hn : ∀ c ∈ number, isDigit c = true)
    (he : IsEcho echo) : TexLine.errorPlace? (placeLine number echo) = some number := by
  have htake := takeWhile_append_of_head? hn he.not_isDigit
  have hlead : dropLead? ['l', '.'] (placeLine number echo) = some (number ++ echo) := rfl
  rw [TexLine.errorPlace?, hlead]
  simp only [Option.bind_eq_bind, Option.bind_some, htake, TexLine.guard_of hne]
  rfl

private theorem IsHarmless.ofChars_eq (h : IsHarmless number echo) :
    TexLine.ofChars (placeLine number echo) = .plain :=
  TexLine.ofChars_plain h.no_fileError (by decide)

/-- What is in front of the echo has no parentheses. -/
private theorem balanced_placeLine (hn : ∀ c ∈ number, isDigit c = true) :
    balanced 0 (placeLine number echo) = balanced 0 echo := by
  have hno : ∀ c, isDigit c = false → c ∉ number := fun c => notMem_of_isDigit hn
  have ho : '(' ∉ 'l' :: '.' :: number := by simp [hno '(' (by decide)]
  have hc : ')' ∉ 'l' :: '.' :: number := by simp [hno ')' (by decide)]
  exact balanced_append ho hc 0 echo

private theorem isLine_placeLine (hn : ∀ c ∈ number, isDigit c = true) (he : IsLine echo) :
    IsLine (placeLine number echo) := by
  rw [placeLine, isLine_cons, isLine_cons, isLine_append]
  exact ⟨by decide, by decide, isLine_of_isDigit hn, he⟩

private theorem isEcho_nil : IsEcho [] := ⟨by decide, by simp⟩

private theorem isHarmless_nil (hn : ∀ c ∈ number, isDigit c = true) : IsHarmless number [] where
  isBalanced := rfl
  no_fileError := by
    have hcolon : ':' ∉ number := notMem_of_isDigit hn (by decide)
    exact TexLine.fileError?_eq_none_of_notMem (by simp [placeLine, hcolon])

/-- Harmless echoes can be exchanged. -/
theorem IsHarmless.interchangeable {other : List Char} (hne : number ≠ [])
    (hn : ∀ c ∈ number, isDigit c = true) (he : IsEcho echo) (ho : IsEcho other)
    (hh : IsHarmless number echo) (hh' : IsHarmless number other) :
    Interchangeable (placeLine number echo) (placeLine number other) := by
  intro text text' front back baseDir mainFile hfront htext htext'
  rw [entries, entries, htext, htext']
  refine entriesOfLines_congr ?_ hh.ofChars_eq hh'.ofChars_eq (fun files => ?_) hfront back
  · rw [errorPlace?_placeLine hne hn he, errorPlace?_placeLine hne hn ho]
  · rw [FileStack.feed_of_balanced ((balanced_placeLine hn).trans hh.isBalanced),
      FileStack.feed_of_balanced ((balanced_placeLine hn).trans hh'.isBalanced)]

end Echo

/-! ### Logs that tell lines apart -/

/-- Marks that open no file, on the mark of one that does. -/
def restingOn (depth : Nat) (file : Path) : List (Option Path) :=
  List.replicate depth none ++ [some file]

private theorem length_restingOn (depth : Nat) (file : Path) :
    (restingOn depth file).length = depth + 1 := by
  simp [restingOn]

/-- The file at the bottom is open as long as its mark is left. -/
private theorem current_drop_restingOn (baseDir mainFile : Path) (depth m : Nat) (file : Path) :
    FileStack.current ⟨baseDir, mainFile, (restingOn depth file).drop m⟩ =
      if m ≤ depth then file else mainFile := by
  rw [FileStack.current]
  split
  · next h =>
    rw [restingOn, List.drop_append_of_le_length (by simpa using h), List.drop_replicate,
      List.findSome?_append]
    simp
  · next h =>
    rw [List.drop_eq_nil_of_le (by rw [length_restingOn]; omega)]
    rfl

/-- What is not balanced moves the bottom of the marks or, if it takes off as many as it puts on,
covers it. Two files at the bottom are enough to see one of them replaced. -/
theorem exists_current_ne {opened : List (Option Path)} {closed : Nat}
    (h : ¬ (opened = [] ∧ closed = 0)) (baseDir : Path) {a b mainFile : Path} (hab : a ≠ b)
    (ha : a ≠ mainFile) :
    ∃ file ∈ [a, b], ∃ depth m,
      FileStack.current ⟨baseDir, mainFile, (opened ++ (restingOn depth file).drop closed).drop m⟩ ≠
        FileStack.current ⟨baseDir, mainFile, (restingOn depth file).drop m⟩ := by
  have hbelow : ∀ depth file, (opened ++ (restingOn depth file).drop closed).drop
      (opened.length + 1) = (restingOn depth file).drop (closed + 1) := fun depth file => by
    rw [List.drop_length_add_append, List.drop_drop]
  obtain hlt | heq | hgt := Nat.lt_trichotomy opened.length closed
  · refine ⟨a, by simp, closed, opened.length + 1, ?_⟩
    rw [hbelow, current_drop_restingOn, current_drop_restingOn, if_neg (by omega),
      if_pos (by omega)]
    exact ha.symm
  · obtain ⟨depth, rfl⟩ : ∃ depth, closed = depth + 1 := by
      refine Nat.exists_eq_succ_of_ne_zero ?_
      rintro rfl
      exact h ⟨List.length_eq_zero_iff.mp heq, rfl⟩
    have hnil : ∀ file, (restingOn depth file).drop (depth + 1) = [] := fun file =>
      List.drop_eq_nil_of_le (Nat.le_of_eq (length_restingOn depth file))
    -- nothing of the old marks is left, so the file at the bottom does not matter
    obtain ⟨file, hfile, hne⟩ : ∃ file ∈ [a, b],
        FileStack.current ⟨baseDir, mainFile, opened.drop depth⟩ ≠ file := by
      by_cases hc : FileStack.current ⟨baseDir, mainFile, opened.drop depth⟩ = a
      · exact ⟨b, by simp, hc ▸ hab⟩
      · exact ⟨a, by simp, hc⟩
    refine ⟨file, hfile, depth, depth, ?_⟩
    rw [hnil, List.append_nil, current_drop_restingOn, if_pos (Nat.le_refl depth)]
    exact hne
  · refine ⟨a, by simp, opened.length, opened.length + 1, ?_⟩
    rw [hbelow, current_drop_restingOn, current_drop_restingOn, if_pos (by omega),
      if_neg (by omega)]
    exact ha

private theorem marksAfter_replicate_open (baseDir : Path) (marks : List (Option Path)) (k : Nat) :
    FileStack.marksAfter baseDir marks (List.replicate k '(') = List.replicate k none ++ marks := by
  induction k generalizing marks with
  | zero => rfl
  | succ k ih =>
    have hname : FileStack.fileName? (List.replicate k '(') = none := by cases k <;> rfl
    rw [List.replicate_succ, FileStack.marksAfter, if_pos rfl, hname]
    simp only [Option.map_none, ih, List.replicate_succ', List.append_assoc, List.singleton_append]

private theorem balanced_replicate_close (k : Nat) : balanced k (List.replicate k ')') = true := by
  induction k with
  | zero => rfl
  | succ k ih => simpa [List.replicate_succ, balanced] using ih

/-- A log with a line `l` in it behind which `m` files are closed, `depth` parentheses and the file
`name` being open in front of it. The error at the end belongs to the file that is open then. -/
def probe (name : List Char) (depth m : Nat) (l : List Char) : List (List Char) :=
  ['(' :: name, List.replicate depth '('] ++
    l :: [List.replicate m ')', "! x".toList, "l.1".toList]

private theorem lines_probe {name l : List Char} (hname : IsFileName name) (hl : IsLine l)
    (depth m : Nat) : lines (joinWith ['\n'] (probe name depth m l)) = probe name depth m l := by
  have hopen : IsLine (List.replicate depth '(') := fun c hc => by
    rw [List.eq_of_mem_replicate hc]
    decide
  have hclose : IsLine (List.replicate m ')') := fun c hc => by
    rw [List.eq_of_mem_replicate hc]
    decide
  have hall : ∀ s ∈ probe name depth m l, IsLine s := by
    simp only [probe, List.forall_mem_append, List.forall_mem_cons]
    exact ⟨⟨isLine_cons.mpr ⟨by decide, isLine_of_not_isBlank hname.not_blank⟩, hopen, by simp⟩,
      hl, hclose, by decide, by decide, by simp⟩
  rw [lines_joinWith hall, if_neg (by simp [probe])]

private theorem ofChars_replicate {c : Char} (hs : c ≠ ' ') (hc : c ≠ ':') (k : Nat) :
    TexLine.ofChars (List.replicate k c) = .plain :=
  TexLine.ofChars_eq_plain (fun h => hs (List.eq_of_mem_replicate h).symm)
    fun h => hc (List.eq_of_mem_replicate h).symm

/-- The error at the end of a log shows what its line does to the marks. -/
private theorem entriesOfLines_probe {name l : List Char} (hname : IsFileName name)
    (hl : TexLine.ofChars l = .plain) (depth m : Nat) (baseDir mainFile : Path) :
    entriesOfLines { baseDir, mainFile } (probe name depth m l) =
      .ok [⟨.error, some (FileStack.current ⟨baseDir, mainFile,
        (FileStack.marksAfter baseDir
          (restingOn depth (baseDir.resolveIn (String.ofList name))) l).drop m⟩), 1, "x"⟩] := by
  have hopening : TexLine.ofChars ('(' :: name) = .plain :=
    TexLine.ofChars_plain (TexLine.fileError?_opening name) (by decide)
  have hsplit : probe name depth m l =
      ['(' :: name, List.replicate depth '(', l, List.replicate m ')'] ++
        ["! x".toList, "l.1".toList] := rfl
  have hplain : ∀ s ∈ ['(' :: name, List.replicate depth '(', l, List.replicate m ')'],
      TexLine.ofChars s = .plain := by
    simp [hopening, hl, ofChars_replicate]
  rw [hsplit, entriesOfLines_append hplain]
  simp only [List.foldl_cons, List.foldl_nil, FileStack.feed_opening hname]
  simp only [FileStack.feed, marksAfter_replicate_open,
    FileStack.marksAfter_of_balanced (balanced_replicate_close m)]
  rfl

/-- A line that can be exchanged for a plain one in every log does nothing else to the marks. -/
private theorem Interchangeable.marksAfter_eq {l l' : List Char} (h : Interchangeable l l')
    (hl : IsLine l) (hl' : IsLine l') (hplain : TexLine.ofChars l = .plain)
    (hplain' : TexLine.ofChars l' = .plain) {name : List Char} (hname : IsFileName name)
    (depth m : Nat) (baseDir mainFile : Path) :
    FileStack.current ⟨baseDir, mainFile, (FileStack.marksAfter baseDir
        (restingOn depth (baseDir.resolveIn (String.ofList name))) l).drop m⟩ =
      FileStack.current ⟨baseDir, mainFile, (FileStack.marksAfter baseDir
        (restingOn depth (baseDir.resolveIn (String.ofList name))) l').drop m⟩ := by
  have hfront : warningsEnd ['(' :: name, List.replicate depth '('] = true := by
    simp [warningsEnd, ofChars_replicate,
      TexLine.ofChars_plain (TexLine.fileError?_opening name) (by decide)]
  have heq := h _ _ _ _ baseDir mainFile hfront (lines_probe hname hl depth m)
    (lines_probe hname hl' depth m)
  rw [entries, entries, lines_probe hname hl, lines_probe hname hl',
    entriesOfLines_probe hname hplain, entriesOfLines_probe hname hplain'] at heq
  simpa using heq

/-- An error that names its file shows in a log of one line. -/
private theorem entriesOfLines_ne_of_fileError? {l : List Char} {kind : TexLine}
    (h : TexLine.fileError? l = some kind) : entriesOfLines files [l] ≠ .ok [] := by
  obtain ⟨file, number, message, rfl, -⟩ := TexLine.exists_of_fileError?_eq_some h
  have hkind : TexLine.ofChars l = .fileError file number message := by
    rw [TexLine.ofChars, h]
    rfl
  rw [entriesOfLines, hkind, entryOfLine]
  cases readDigits number <;> simp [entriesOfLines, bind, Except.bind, pure, Except.pure]

/-- An echo that can be exchanged for none makes no error that names its file. -/
private theorem Interchangeable.fileError?_eq_none {number echo : List Char}
    (h : Interchangeable (placeLine number echo) (placeLine number []))
    (hn : ∀ c ∈ number, isDigit c = true) (he : IsEcho echo) :
    TexLine.fileError? (placeLine number echo) = none := by
  have hl := lines_eq_singleton (isLine_placeLine hn he.isLine) (List.cons_ne_nil _ _)
  have hl' := lines_eq_singleton (isLine_placeLine hn isEcho_nil.isLine) (List.cons_ne_nil _ _)
  cases hf : TexLine.fileError? (placeLine number echo) with
  | none => rfl
  | some kind =>
    have heq := h _ _ [] [] ⟨.root, []⟩ ⟨.root, []⟩ rfl hl hl'
    rw [entries, entries, hl, hl', entriesOfLines_plain (isHarmless_nil hn).ofChars_eq] at heq
    exact absurd heq (entriesOfLines_ne_of_fileError? hf)

/-- An echo that can be exchanged for none is balanced. -/
private theorem Interchangeable.isBalanced {number echo : List Char}
    (h : Interchangeable (placeLine number echo) (placeLine number []))
    (hn : ∀ c ∈ number, isDigit c = true) (he : IsEcho echo)
    (hplain : TexLine.ofChars (placeLine number echo) = .plain) : balanced 0 echo = true := by
  have hnil : balanced 0 (placeLine number []) = true :=
    (balanced_placeLine hn).trans (isHarmless_nil hn).isBalanced
  obtain ⟨opened, closed, hmarks, hb⟩ :=
    FileStack.exists_marksAfter_eq ⟨.root, []⟩ (placeLine number echo)
  by_contra hunbalanced
  have hmoved : ¬ (opened = [] ∧ closed = 0) := by
    rintro ⟨rfl, rfl⟩
    refine hunbalanced ?_
    rw [← balanced_placeLine hn, ← List.append_nil (placeLine number echo), hb]
    exact ⟨Nat.le_refl 0, rfl⟩
  obtain ⟨file, hfile, depth, m, hdiffer⟩ := exists_current_ne hmoved ⟨.root, []⟩
    (by decide : (⟨.root, ["a.x"]⟩ : Path) ≠ ⟨.root, ["b.x"]⟩)
    (by decide : (⟨.root, ["a.x"]⟩ : Path) ≠ ⟨.root, ["m"]⟩)
  obtain ⟨name, hname, rfl⟩ : ∃ name, IsFileName name ∧
      file = Path.resolveIn ⟨.root, []⟩ (String.ofList name) := by
    simp only [List.mem_cons, List.not_mem_nil, or_false] at hfile
    obtain rfl | rfl := hfile
    · exact ⟨"a.x".toList, by decide, by decide⟩
    · exact ⟨"b.x".toList, by decide, by decide⟩
  have heq := h.marksAfter_eq (isLine_placeLine hn he.isLine)
    (isLine_placeLine hn isEcho_nil.isLine) hplain (isHarmless_nil hn).ofChars_eq hname depth m
    ⟨.root, []⟩ ⟨.root, ["m"]⟩
  rw [hmarks, FileStack.marksAfter_of_balanced hnil] at heq
  exact hdiffer heq

/-- **An echoed text can be exchanged** for any that is harmless, in every log in which no warning
runs into its line, just if it is harmless itself. -/
theorem isHarmless_iff {number echo : List Char} (hne : number ≠ [])
    (hn : ∀ c ∈ number, isDigit c = true) (he : IsEcho echo) :
    IsHarmless number echo ↔ ∀ other, IsEcho other → IsHarmless number other →
      Interchangeable (placeLine number echo) (placeLine number other) := by
  refine ⟨fun h other ho hh => h.interchangeable hne hn he ho hh, fun h => ?_⟩
  have hnil := h [] isEcho_nil (isHarmless_nil hn)
  have hfile := hnil.fileError?_eq_none hn he
  exact ⟨hnil.isBalanced hn he (TexLine.ofChars_plain hfile (by decide)), hfile⟩

/-- An echo with balanced parentheses, whatever they are there for. -/
theorem isHarmless_iff_call :
    IsEcho " f(x) (mod p)".toList ∧ ∀ other, IsEcho other → IsHarmless "12".toList other →
      Interchangeable (placeLine "12".toList " f(x) (mod p)".toList)
        (placeLine "12".toList other) :=
  ⟨⟨by decide, by decide⟩, (isHarmless_iff (by decide) (by decide) ⟨by decide, by decide⟩).mp
    ⟨by decide, by decide⟩⟩

/-- A log of a chapter in which two errors are reported, the first one with `echo` behind its
place. -/
def chapterLog (echo : List Char) : List Char :=
  joinWith ['\n'] ["(./main.tex".toList, "(./chapter.tex".toList,
    "! Undefined control sequence.".toList, placeLine "12".toList echo,
    "! Missing $ inserted.".toList, "l.30 x^".toList]

/-- **A parenthesis in the document closes a file**: with a smiley behind the place of the first
error, the second one is attributed to another file. -/
theorem entries_chapterLog_smiley :
    IsEcho " \\foo :-)".toList ∧ IsEcho " \\foo".toList ∧
      (∀ echo ∈ [" \\foo :-)".toList, " \\foo".toList], lines (chapterLog echo) =
        ["(./main.tex".toList, "(./chapter.tex".toList, "! Undefined control sequence.".toList] ++
          placeLine "12".toList echo :: ["! Missing $ inserted.".toList, "l.30 x^".toList]) ∧
      entries (chapterLog " \\foo :-)".toList) ⟨.root, ["doc"]⟩ ⟨.root, ["doc", "main.tex"]⟩ =
        .ok [⟨.error, some ⟨.root, ["doc", "chapter.tex"]⟩, 12, "Undefined control sequence"⟩,
          ⟨.error, some ⟨.root, ["doc", "main.tex"]⟩, 30, "Missing $ inserted"⟩] ∧
      entries (chapterLog " \\foo".toList) ⟨.root, ["doc"]⟩ ⟨.root, ["doc", "main.tex"]⟩ =
        .ok [⟨.error, some ⟨.root, ["doc", "chapter.tex"]⟩, 12, "Undefined control sequence"⟩,
          ⟨.error, some ⟨.root, ["doc", "chapter.tex"]⟩, 30, "Missing $ inserted"⟩] :=
  ⟨⟨by decide, by decide⟩, ⟨by decide, by decide⟩, by decide, by decide +kernel, by decide +kernel⟩

end Galley.TexLog
