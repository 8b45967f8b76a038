import Galley.Proofs.Log.Tex
import Galley.Proofs.Log.TexLine
import Galley.Proofs.Text.Lines
import Mathlib.Tactic.MkIffOfInductiveProp

/-!
# Structured logs

A structured log is a forest of files, the way TeX opens and closes them, with reports and noise
in them. `LogForest.lines` prints it, and `LogForest.entries` is what it means: one entry for each
report, with the innermost file around it. `entries_of_structured` is the main result: reading a
printed log gives what it means.

The induction is over the forest. What carries it is that a forest leaves the files that are open
as it finds them, so what stands behind it is read as if it were not there
(`entriesOfLines_forest`).
-/

namespace Galley

open Text

/-! ### Structured logs and their print -/

/-- A report or a line of noise. Numbers are kept as they are written. -/
inductive LogItem where
  /-- An error, with its place on the line behind it. -/
  | error (message line context : List Char)
  /-- An error that names its file. -/
  | fileError (file line message : List Char)
  | warning (message line : List Char)
  /-- A line that is too wide, in a paragraph between two lines. -/
  | overfull (amount first last : List Char)
  /-- A line that reports nothing. -/
  | noise (text : List Char)

/-- A forest of files. -/
inductive LogForest where
  | nil
  /-- A file with what is in it, and what stands behind it. -/
  | file (name : List Char) (inner rest : LogForest)
  | item (item : LogItem) (rest : LogForest)

/-- The lines of an item. -/
def LogItem.lines : LogItem → List (List Char)
  | .error m n context =>
    ["! ".toList ++ (m ++ ['.']), "l.".toList ++ (n ++ ' ' :: context)]
  | .fileError file n m => [file ++ ':' :: (n ++ ": ".toList ++ (m ++ ['.']))]
  | .warning m n => ["LaTeX Warning: ".toList ++ (m ++ " on input line ".toList ++ n ++ ['.'])]
  | .overfull amount first last =>
    ["Overfull \\hbox ".toList ++ ('(' :: amount ++
      "pt too wide) in paragraph at lines ".toList ++ (first ++ "--".toList ++ last))]
  | .noise text => [text]

/-- The lines of a forest: a file stands between parentheses. -/
def LogForest.lines : LogForest → List (List Char)
  | .nil => []
  | .file name inner rest => ('(' :: name) :: (inner.lines ++ [')'] :: rest.lines)
  | .item i rest => i.lines ++ rest.lines

/-! ### What they mean -/

/-- The entry that an item means, if it means one, `current` being the file around it. -/
def LogItem.meaning? (baseDir current : Path) : LogItem → Option Entry
  | .error m n _ => some ⟨.error, some current, digitsValue n, String.ofList m⟩
  | .fileError file n m =>
    some ⟨.error, some (baseDir.resolveIn (String.ofList file)), digitsValue n, String.ofList m⟩
  | .warning m n => some ⟨.warning, some current, digitsValue n, String.ofList m⟩
  | .overfull amount first _ => some ⟨.badBox, some current, digitsValue first,
      String.ofList ("Overfull \\hbox ".toList ++ ('(' :: amount ++ "pt too wide)".toList))⟩
  | .noise _ => none

/-- The entries that a forest means, `current` being the file around it. -/
def LogForest.entries (baseDir current : Path) : LogForest → List Entry
  | .nil => []
  | .file name inner rest =>
    inner.entries baseDir (baseDir.resolveIn (String.ofList name)) ++ rest.entries baseDir current
  | .item i rest => (i.meaning? baseDir current).toList ++ rest.entries baseDir current

/-! ### Well-formed logs -/

/-- Whether a text can be a message: it is one trimmed line that does not end in a full stop. -/
@[mk_iff]
structure IsMessage (m : List Char) : Prop where
  ne_nil : m ≠ []
  isLine : IsLine m
  trimmed : trim m = m
  no_stop : m.getLast? ≠ some '.'

instance (m : List Char) : Decidable (IsMessage m) := decidable_of_iff _ (isMessage_iff m).symm

/-- Whether a line is noise: it looks like no report, and its parentheses are balanced. -/
@[mk_iff]
structure IsNoise (text : List Char) : Prop where
  isLine : IsLine text
  no_fileError : TexLine.fileError? text = none
  no_error : TexLine.error? text = none
  no_warning : TexLine.warning? text = none
  no_badBox : TexLine.badBox? text = none
  isBalanced : balanced 0 text = true

instance (text : List Char) : Decidable (IsNoise text) :=
  decidable_of_iff _ (isNoise_iff text).symm

/-- Whether an item reads back as what it is. An error and its place must not look like an error
that names its file. -/
def LogItem.WellFormed : LogItem → Prop
  | .error m n context => IsMessage m ∧ IsNumeral n ∧ IsLine context ∧
      balanced 0 context = true ∧
        ∀ l ∈ (LogItem.error m n context).lines, TexLine.fileError? l = none
  | .fileError file n m => IsFileName file ∧ ':' ∉ file ∧ IsNumeral n ∧ IsMessage m
  | .warning m n => IsMessage m ∧ IsNumeral n
  | .overfull amount first last => (∀ c ∈ amount, isDigit c = true ∨ c = '.') ∧ IsNumeral first ∧
      ∀ c ∈ last, isDigit c = true
  | .noise text => IsNoise text

instance LogItem.decidableWellFormed : (i : LogItem) → Decidable i.WellFormed
  | .error m n context => inferInstanceAs (Decidable (IsMessage m ∧ IsNumeral n ∧ IsLine context ∧
      balanced 0 context = true ∧
        ∀ l ∈ (LogItem.error m n context).lines, TexLine.fileError? l = none))
  | .fileError file n m =>
    inferInstanceAs (Decidable (IsFileName file ∧ ':' ∉ file ∧ IsNumeral n ∧ IsMessage m))
  | .warning m n => inferInstanceAs (Decidable (IsMessage m ∧ IsNumeral n))
  | .overfull amount first last =>
    inferInstanceAs (Decidable ((∀ c ∈ amount, isDigit c = true ∨ c = '.') ∧ IsNumeral first ∧
      ∀ c ∈ last, isDigit c = true))
  | .noise text => inferInstanceAs (Decidable (IsNoise text))

/-- Whether all files of a forest have names and all its items are well-formed. -/
def LogForest.WellFormed : LogForest → Prop
  | .nil => True
  | .file name inner rest => IsFileName name ∧ inner.WellFormed ∧ rest.WellFormed
  | .item i rest => i.WellFormed ∧ rest.WellFormed

instance LogForest.decidableWellFormed : (f : LogForest) → Decidable f.WellFormed
  | .nil => inferInstanceAs (Decidable True)
  | .file name inner rest =>
    have : Decidable inner.WellFormed := LogForest.decidableWellFormed inner
    have : Decidable rest.WellFormed := LogForest.decidableWellFormed rest
    inferInstanceAs (Decidable (IsFileName name ∧ inner.WellFormed ∧ rest.WellFormed))
  | .item i rest =>
    have : Decidable rest.WellFormed := LogForest.decidableWellFormed rest
    inferInstanceAs (Decidable (i.WellFormed ∧ rest.WellFormed))

/-- An error is well-formed if there are no colons in it and no parentheses on the line of its
place. -/
theorem LogItem.wellFormed_error {m n context : List Char} (hm : IsMessage m) (hn : IsNumeral n)
    (hc : IsLine context) (hmessage : ':' ∉ m) (hcontext : ':' ∉ context) (ho : '(' ∉ context)
    (hp : ')' ∉ context) : (LogItem.error m n context).WellFormed := by
  refine ⟨hm, hn, hc, balanced_of_notMem ho hp, ?_⟩
  have hnumber : ':' ∉ n := hn.notMem (by decide)
  rw [LogItem.lines, List.forall_mem_cons, List.forall_mem_singleton]
  constructor
  · exact TexLine.fileError?_eq_none_of_notMem (by simp [hmessage])
  · exact TexLine.fileError?_eq_none_of_notMem (by simp [hnumber, hcontext])

/-! ### Reading items -/

private theorem IsMessage.cleanMessage_append_stop {m : List Char} (h : IsMessage m) :
    TexLog.cleanMessage (m ++ ['.']) = m :=
  TexLog.cleanMessage_append_stop h.ne_nil h.trimmed h.no_stop

theorem IsMessage.cleanMessage_eq {m : List Char} (h : IsMessage m) : TexLog.cleanMessage m = m :=
  TexLog.cleanMessage_eq_self h.trimmed h.no_stop

theorem IsMessage.head?_append {m : List Char} (h : IsMessage m) (s : List Char) :
    ∀ c ∈ (m ++ s).head?, isBlank c = false := by
  obtain ⟨c, r, rfl⟩ := List.exists_cons_of_ne_nil h.ne_nil
  exact (trim_eq_self_iff.mp h.trimmed).1

private theorem IsNoise.ofChars_eq {text : List Char} (h : IsNoise text) :
    TexLine.ofChars text = .plain := by
  rw [TexLine.ofChars, h.no_fileError, h.no_error, h.no_warning, h.no_badBox]
  rfl

variable (files : FileStack) (behind : List (List Char))

/-- The place of an error is the first that is named behind it; its line opens and closes
nothing. -/
private theorem entriesOfLines_error {m n context : List Char}
    (h : (LogItem.error m n context).WellFormed) :
    TexLog.entriesOfLines files ((LogItem.error m n context).lines ++ behind) =
      (((LogItem.error m n context).meaning? files.baseDir files.current).toList ++ ·) <$>
        TexLog.entriesOfLines files behind := by
  obtain ⟨hm, hn, -, hb, hf⟩ := h
  rw [LogItem.lines, List.forall_mem_cons, List.forall_mem_singleton] at hf
  have hkind : TexLine.ofChars ("! ".toList ++ (m ++ ['.'])) = .error (m ++ ['.']) :=
    TexLine.ofChars_error hf.1 (by simp) (hm.head?_append _)
  have hplain : TexLine.ofChars ("l.".toList ++ (n ++ ' ' :: context)) = .plain :=
    TexLine.ofChars_plain hf.2 (by decide)
  have hplace : TexLine.errorPlace? ("l.".toList ++ (n ++ ' ' :: context)) = some n :=
    TexLine.errorPlace?_place hn context
  have hbalanced : balanced 0 ("l.".toList ++ (n ++ ' ' :: context)) = true := by
    have hopen : '(' ∉ n := hn.notMem (by decide)
    have hclose : ')' ∉ n := hn.notMem (by decide)
    have ho : '(' ∉ "l.".toList ++ n ++ [' '] := by simp [hopen]
    have hc : ')' ∉ "l.".toList ++ n ++ [' '] := by simp [hclose]
    rw [← hb, ← balanced_append ho hc 0 context]
    simp
  have hentry : TexLog.entryOfLine files (.error (m ++ ['.']))
      (("l.".toList ++ (n ++ ' ' :: context)) :: behind) =
      .ok ((LogItem.error m n context).meaning? files.baseDir files.current) := by
    rw [TexLog.entryOfLine, TexLog.placeLookahead, List.take_succ_cons, List.findSome?_cons, hplace]
    simp only [hm.cleanMessage_append_stop, hn.readDigits_eq]
    rfl
  rw [LogItem.lines, List.cons_append, List.singleton_append,
    TexLog.entriesOfLines_report hkind (by simp) hentry, TexLog.entriesOfLines_plain hplain,
    FileStack.feed_of_balanced hbalanced]

private theorem entriesOfLines_fileError {file n m : List Char}
    (h : (LogItem.fileError file n m).WellFormed) :
    TexLog.entriesOfLines files ((LogItem.fileError file n m).lines ++ behind) =
      (((LogItem.fileError file n m).meaning? files.baseDir files.current).toList ++ ·) <$>
        TexLog.entriesOfLines files behind := by
  obtain ⟨hf, hcolon, hn, hm⟩ := h
  have hkind : TexLine.ofChars (file ++ ':' :: (n ++ ": ".toList ++ (m ++ ['.']))) =
      .fileError file n (m ++ ['.']) := by
    rw [List.append_assoc]
    exact TexLine.ofChars_fileError hf hcolon hn (by simp)
  have hentry : TexLog.entryOfLine files (.fileError file n (m ++ ['.'])) behind =
      .ok ((LogItem.fileError file n m).meaning? files.baseDir files.current) := by
    rw [TexLog.entryOfLine, hm.cleanMessage_append_stop, hn.readDigits_eq]
    rfl
  exact TexLog.entriesOfLines_report hkind (by simp) hentry

/-- The full stop at the end of a warning keeps it from being continued. -/
private theorem entriesOfLines_warning {m n : List Char} (h : (LogItem.warning m n).WellFormed) :
    TexLog.entriesOfLines files ((LogItem.warning m n).lines ++ behind) =
      (((LogItem.warning m n).meaning? files.baseDir files.current).toList ++ ·) <$>
        TexLog.entriesOfLines files behind := by
  obtain ⟨hm, hn⟩ := h
  have hkind : TexLine.ofChars
      ("LaTeX Warning: ".toList ++ (m ++ " on input line ".toList ++ n ++ ['.'])) =
      .warning (m ++ " on input line ".toList ++ n ++ ['.']) :=
    TexLine.ofChars_warning (show TexLine.WarningSource.latex.WellFormed from trivial) (by simp)
  have hentry : TexLog.entryOfLine files
      (.warning (m ++ " on input line ".toList ++ n ++ ['.'])) behind =
      .ok ((LogItem.warning m n).meaning? files.baseDir files.current) := by
    rw [TexLog.entryOfLine, TexLog.continued_append_stop,
      TexLine.inputLine?_append hn.ne_nil hn.isDigit_of_mem
        (trim_eq_self_iff.mp hm.trimmed).2]
    simp only [hm.cleanMessage_eq, hn.readDigits_eq]
    rfl
  exact TexLog.entriesOfLines_report hkind (by simp) hentry

private theorem entriesOfLines_overfull {amount first last : List Char}
    (h : (LogItem.overfull amount first last).WellFormed) :
    TexLog.entriesOfLines files ((LogItem.overfull amount first last).lines ++ behind) =
      (((LogItem.overfull amount first last).meaning? files.baseDir files.current).toList ++ ·) <$>
        TexLog.entriesOfLines files behind := by
  obtain ⟨ha, hn, hl⟩ := h
  have hcolon : ':' ∉ last := fun hm => absurd (hl ':' hm) (by decide)
  have hkind : TexLine.ofChars ("Overfull \\hbox ".toList ++ ('(' :: amount ++
      "pt too wide) in paragraph at lines ".toList ++ (first ++ "--".toList ++ last))) =
      .badBox ("Overfull \\hbox ".toList ++ ('(' :: amount ++ "pt too wide)".toList)) first := by
    rw [List.append_assoc first]
    exact TexLine.ofChars_overfull ha hn hcolon
  have htrim : trim ("Overfull \\hbox ".toList ++ ('(' :: amount ++ "pt too wide)".toList)) =
      "Overfull \\hbox ".toList ++ ('(' :: amount ++ "pt too wide)".toList) := by
    rw [trim_eq_self_iff]
    constructor
    · rintro c ⟨⟩
      decide
    · have hlast : "Overfull \\hbox ".toList ++ ('(' :: amount ++ "pt too wide)".toList) =
          "Overfull \\hbox ".toList ++ ('(' :: amount ++ "pt too wide".toList) ++ [')'] := by
        simp
      rw [hlast, List.getLast?_concat]
      rintro c ⟨⟩
      decide
  have hentry : TexLog.entryOfLine files (.badBox
      ("Overfull \\hbox ".toList ++ ('(' :: amount ++ "pt too wide)".toList)) first) behind =
      .ok ((LogItem.overfull amount first last).meaning? files.baseDir files.current) := by
    rw [TexLog.entryOfLine, htrim, hn.readDigits_eq]
    rfl
  exact TexLog.entriesOfLines_report hkind (by simp) hentry

/-- An item adds the entry that it means and leaves the files as they are. -/
private theorem entriesOfLines_item {i : LogItem} (h : i.WellFormed) :
    TexLog.entriesOfLines files (i.lines ++ behind) =
      ((i.meaning? files.baseDir files.current).toList ++ ·) <$>
        TexLog.entriesOfLines files behind := by
  cases i with
  | error m n context => exact entriesOfLines_error files behind h
  | fileError file n m => exact entriesOfLines_fileError files behind h
  | warning m n => exact entriesOfLines_warning files behind h
  | overfull amount first last => exact entriesOfLines_overfull files behind h
  | noise text =>
    rw [LogItem.lines, List.singleton_append, TexLog.entriesOfLines_plain h.ofChars_eq,
      FileStack.feed_of_balanced h.isBalanced]
    exact (id_map _).symm

/-! ### Reading forests -/

/-- A forest adds the entries that it means and leaves the files as they are, whatever files are
open in front of it and whatever stands behind it. -/
theorem entriesOfLines_forest {f : LogForest} (hf : f.WellFormed) :
    TexLog.entriesOfLines files (f.lines ++ behind) =
      (f.entries files.baseDir files.current ++ ·) <$> TexLog.entriesOfLines files behind := by
  induction f generalizing files behind with
  | nil => exact (id_map _).symm
  | file name inner rest ihInner ihRest =>
    obtain ⟨hname, hinner, hrest⟩ := hf
    have hopening : TexLine.ofChars ('(' :: name) = .plain :=
      TexLine.ofChars_plain (TexLine.fileError?_opening name) (by decide)
    have hclosing : TexLine.ofChars [')'] = .plain := by decide
    rw [LogForest.lines, List.cons_append, TexLog.entriesOfLines_plain hopening,
      FileStack.feed_opening hname, List.append_assoc, ihInner _ _ hinner, List.cons_append,
      TexLog.entriesOfLines_plain hclosing, FileStack.feed_closing]
    -- the closing parenthesis takes off the mark that the opening one has set
    rw [List.tail_cons, ihRest files behind hrest, Functor.map_map]
    simp only [LogForest.entries, List.append_assoc]
    rfl
  | item i rest ih =>
    obtain ⟨hi, hrest⟩ := hf
    rw [LogForest.lines, List.append_assoc, entriesOfLines_item files _ hi, ih files behind hrest,
      Functor.map_map]
    simp only [LogForest.entries, List.append_assoc]

/-! ### Printed lines -/

private theorem LogItem.isLine_of_mem_lines {i : LogItem} (hi : i.WellFormed) :
    ∀ l ∈ i.lines, IsLine l := by
  cases i with
  | error m n context =>
    obtain ⟨hm, hn, hc, -⟩ := hi
    have hnumber : IsLine n := isLine_of_isDigit hn.isDigit_of_mem
    rw [lines, List.forall_mem_cons, List.forall_mem_singleton]
    simp only [isLine_append, isLine_cons]
    exact ⟨⟨by decide, hm.isLine, by decide⟩, by decide, hnumber, by decide, hc⟩
  | fileError file n m =>
    obtain ⟨hf, -, hn, hm⟩ := hi
    have hfile : IsLine file := isLine_of_not_isBlank hf.not_blank
    have hnumber : IsLine n := isLine_of_isDigit hn.isDigit_of_mem
    simp only [lines, List.forall_mem_singleton, isLine_append, isLine_cons]
    exact ⟨hfile, by decide, ⟨hnumber, by decide⟩, hm.isLine, by decide⟩
  | warning m n =>
    obtain ⟨hm, hn⟩ := hi
    have hnumber : IsLine n := isLine_of_isDigit hn.isDigit_of_mem
    simp only [lines, List.forall_mem_singleton, isLine_append]
    exact ⟨by decide, ⟨⟨hm.isLine, by decide⟩, hnumber⟩, by decide⟩
  | overfull amount first last =>
    obtain ⟨ha, hn, hl⟩ := hi
    have hamount : IsLine amount := by
      intro c hc
      rcases ha c hc with hd | rfl
      · exact isLineBreak_of_isDigit hd
      · decide
    have hnumber : IsLine first := isLine_of_isDigit hn.isDigit_of_mem
    simp only [lines, List.forall_mem_singleton, isLine_append, isLine_cons]
    exact ⟨by decide, ⟨⟨by decide, hamount⟩, by decide⟩, ⟨hnumber, by decide⟩,
      isLine_of_isDigit hl⟩
  | noise text => simpa [lines] using hi.isLine

private theorem LogForest.isLine_of_mem_lines {f : LogForest} (hf : f.WellFormed) :
    ∀ l ∈ f.lines, IsLine l := by
  induction f with
  | nil => simp [lines]
  | file name inner rest ihInner ihRest =>
    obtain ⟨hname, hinner, hrest⟩ := hf
    have hopening : IsLine ('(' :: name) :=
      isLine_cons.mpr ⟨by decide, isLine_of_not_isBlank hname.not_blank⟩
    have hclosing : IsLine [')'] := by decide
    simp only [lines, List.forall_mem_cons, List.forall_mem_append]
    exact ⟨hopening, ihInner hinner, hclosing, ihRest hrest⟩
  | item i rest ih =>
    rw [lines, List.forall_mem_append]
    exact ⟨LogItem.isLine_of_mem_lines hf.1, ih hf.2⟩

/-! ### The main result -/

/-- **Structured logs are read back**: the entries of a printed log are those of its reports, in
order, each with the innermost file around it. -/
theorem entries_of_structured {f : LogForest} (hf : f.WellFormed) (baseDir mainFile : Path) :
    TexLog.entries (joinWith ['\n'] f.lines) baseDir mainFile =
      .ok (f.entries baseDir mainFile) := by
  have hread : TexLog.entriesOfLines { baseDir, mainFile } f.lines =
      .ok (f.entries baseDir mainFile) := by
    rw [← List.append_nil f.lines, entriesOfLines_forest _ [] hf]
    exact congrArg Except.ok (List.append_nil _)
  rw [TexLog.entries, lines_joinWith (LogForest.isLine_of_mem_lines hf)]
  split
  · next hlast =>
    -- noise that is empty and at the very end leaves no line
    obtain ⟨ls, hlines⟩ := List.getLast?_eq_some_iff.mp hlast
    rw [hlines, TexLog.entriesOfLines_append_empty] at hread
    rw [hlines, List.dropLast_concat, hread]
  · exact hread

/-- A log with a file in a file and a report of each kind. -/
def LogForest.sample : LogForest :=
  .file "main.tex".toList
    (.item (.warning "Reference undefined".toList "4".toList) <|
      .file "parts/one.tex".toList
        (.item (.error "Undefined control sequence".toList "5".toList "\\oops".toList) <|
          .item (.fileError "./two.tex".toList "7".toList "Missing $ inserted".toList) .nil) <|
      .item (.overfull "3.2".toList "8".toList "9".toList) .nil)
    (.item (.noise "Output written on main.pdf (1 page)".toList) .nil)

theorem entries_of_structured_sample :
    LogForest.sample.WellFormed ∧
      TexLog.entries (joinWith ['\n'] LogForest.sample.lines) ⟨.root, ["doc"]⟩
          ⟨.root, ["doc", "main.tex"]⟩ =
        .ok [⟨.warning, some ⟨.root, ["doc", "main.tex"]⟩, 4, "Reference undefined"⟩,
          ⟨.error, some ⟨.root, ["doc", "parts", "one.tex"]⟩, 5, "Undefined control sequence"⟩,
          ⟨.error, some ⟨.root, ["doc", "two.tex"]⟩, 7, "Missing $ inserted"⟩,
          ⟨.badBox, some ⟨.root, ["doc", "main.tex"]⟩, 8, "Overfull \\hbox (3.2pt too wide)"⟩] :=
  ⟨by decide, entries_of_structured (by decide) _ _⟩

end Galley
