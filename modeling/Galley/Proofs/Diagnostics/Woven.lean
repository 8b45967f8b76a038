import Galley.Concordance.File
import Galley.Proofs.Concordance.RoundTrip
import Galley.Proofs.Diagnostics.Merged
import Galley.Proofs.Log.Tex
import Galley.Proofs.Log.TexLine
import Galley.Proofs.Path
import Galley.Proofs.Text.Latin1
import Galley.Proofs.Text.Lines

/-!
# Errors in woven documents

TeX reports an error in a line of a woven document, and the concordance next to the document knows
the source of that line. `WovenError` is this situation and `WovenError.StandsIn` the files that it
consists of. The concordance is always read back, but the error is reported at its source just if
the name of the document is ASCII and the two line numbers have no more digits than are read and
written (`WovenError.lines_collect_iff`).

The two files disagree about other names. Both hold the name in UTF-8, but only the concordance is
read as UTF-8, while the log is read as Latin-1: there the name comes out as another one, of which
only a piece may be left behind the last line break that this brings about (`Spelled`). The entry
of the log then points at a file that the concordance is not for.
-/

namespace Galley

open Text

/-- A document that is woven from a source with the same stem, both in the directory `dir`, and an
error that TeX reports in a line of the document that its concordance covers. -/
structure WovenError where
  dir : Path
  settled : dir.Settled
  /-- No directory has a NUL in its name. -/
  hasNul_dir : dir.hasNul = false
  /-- The name of both files without the suffix. -/
  stem : String
  stem_ne : stem ≠ ""
  isNameChar_of_mem : ∀ c ∈ stem.toList, isNameChar c = true
  /-- What the concordance file says about the document. -/
  entry : Concordance.PrintedEntry
  output_eq : entry.output.text = (stem ++ ".tex").toList
  input_eq : entry.input.text = (stem ++ ".Rnw").toList
  line : Nat
  covers_line : (entry.concordance dir).covers line = true
  /-- The message without its full stop. -/
  message : String
  message_ne : message ≠ ""
  trimmed : trim message.toList = message.toList
  no_stop : message.toList.getLast? ≠ some '.'
  printable : ∀ c ∈ message.toList, 32 ≤ c.toNat ∧ c.toNat < 127

namespace WovenError

variable (w : WovenError)

/-- The file with the stem of the document and another ending. -/
def file (ending : String) : Path := w.dir.child (w.stem ++ ending)

/-- The woven document. -/
def document : Path := w.file ".tex"

/-- Its literate source. -/
def source : Path := w.file ".Rnw"

def concordance : Concordance := w.entry.concordance w.dir

/-- The line of the source that the error comes from. -/
def sourceLine : Int := w.concordance.sourceLine w.line

/-- What TeX writes into the log. -/
def logLine : String := "./" ++ w.stem ++ ".tex:" ++ toString w.line ++ ": " ++ w.message ++ "."

/-- What should be shown. -/
def report : String :=
  w.stem ++ ".Rnw" ++ " (line " ++ toString w.sourceLine ++ "): " ++ w.message

/-- Whether the files are there: the concordance file, whose first entry is about the document, the
log with the error and with or without a line end, and no log of BibTeX. -/
structure StandsIn (t : Tree) (here : Path) : Prop where
  concordance : ∃ (f : Concordance.PrintedFile) (text : String) (behind : Concordance.Interlude)
    (more : List (Concordance.PrintedEntry × Concordance.Interlude)),
    f.entries = (w.entry, behind) :: more ∧ unifyBreaks text.toList = f.text ∧
      t.read here (w.file "-concordance.tex") = .ok (utf8Encode text)
  log : ∃ ending ∈ ["", "\n", "\r\n"],
    t.read here (w.file ".log") = .ok (utf8Encode (w.logLine ++ ending))
  bibtex : t.contains here (w.file ".blg") = false

variable {w} {t : Tree} {here : Path}

/-! ### Names -/

private theorem isName_file {ending : String} (he : Path.IsName ending) : Path.IsName
    (w.stem ++ ending) :=
  he.append_of_forall w.isNameChar_of_mem (by decide)

private theorem parent_file {ending : String} (he : Path.IsName ending) :
    (w.file ending).parent = w.dir :=
  Path.parent_child (isName_file he)

/-- What stands next to the document or its source. -/
private theorem sibling_file {suffix : String} {c : Char} {ext : List Char}
    (hs : suffix.toList = '.' :: c :: ext) (hd : '.' ∉ c :: ext) (hn : Path.IsName suffix)
    (ending : String) : (w.file suffix).sibling ending = w.file ending := by
  rw [Path.sibling, parent_file hn, file,
    Path.stem_eq (Path.name_child (isName_file hn)) hs hd w.stem_ne, file]

private theorem isName_rnw : Path.IsName ".Rnw" := ⟨by decide, by decide⟩

private theorem sibling_document (ending : String) : w.document.sibling ending = w.file ending :=
  sibling_file rfl (by decide) Path.isName_tex ending

private theorem sibling_source (ending : String) : w.source.sibling ending = w.file ending :=
  sibling_file rfl (by decide) isName_rnw ending

/-! ### The concordance -/

/-- The concordance of the document is read back. -/
private theorem load_concordance (h : w.StandsIn t here) :
    Concordance.load t here (Concordance.fileFor w.source) = .ok w.concordance := by
  obtain ⟨f, text, behind, more, hentries, htext, hread⟩ := h.concordance
  have hall : Concordance.readAll w.dir (unifyBreaks text.toList) =
      .ok (f.entries.map fun e => e.1.concordance w.dir) := by
    rw [htext, Concordance.readAll, Concordance.PrintedFile.text,
      Concordance.entryBodiesFrom_join_append, Concordance.mapM_ofBody_joinedBody]
  have hparent : (w.file "-concordance.tex").parent = w.dir := parent_file ⟨by decide, by decide⟩
  rw [Concordance.fileFor, sibling_source, Concordance.load, Tree.contains_of_read hread, hread]
  simp only [Bool.not_true, Bool.false_eq_true, if_false, mapError_ok, bind, Except.bind,
    utf8_utf8Encode, hparent, hall, hentries]
  rfl

/-! ### The log -/

/-- What stands behind the stem in the log. -/
def tail (w : WovenError) : List Char :=
  ".tex".toList ++ ':' :: (decimal w.line ++ ':' :: ' ' :: (w.message.toList ++ ['.']))

private theorem toList_logLine : w.logLine.toList = '.' :: '/' :: (w.stem.toList ++ w.tail) := by
  simp [logLine, tail, decimal]

/-- All characters behind the stem are printable ones of ASCII. -/
private theorem range_of_mem_tail {c : Char} (h : c ∈ w.tail) : 32 ≤ c.toNat ∧ c.toNat < 127 := by
  simp only [tail, List.mem_append, List.mem_cons, List.not_mem_nil, or_false] at h
  obtain h | rfl | h | rfl | rfl | h | rfl := h
  · revert c
    decide
  · decide
  · have hc := toNat_of_isDigit (ascii_of_mem_decimal h)
    omega
  · decide
  · decide
  · exact w.printable c h
  · decide

/-- What the name `./stem` comes out as in the log. -/
def spelling (w : WovenError) : List Char := '.' :: '/' :: misread w.stem.toList

/-- What is left of this spelling on the last line of the log, and the name that is read there: all
of it, or what stands behind a next-line control. -/
inductive Spelled (w : WovenError) : List Char → List Char → Prop
  | whole : Spelled w w.spelling (misread w.stem.toList)
  | behind {q name : List Char} (h : misread w.stem.toList = q ++ nextLine :: name) :
      Spelled w name name

/-- Misread names have no other characters of ASCII than names have. -/
private theorem notMem_misread {c : Char} (h : isNameChar c = false) (hc : c.toNat < 128) :
    c ∉ misread w.stem.toList := by
  intro hm
  obtain ⟨hs, -⟩ | ⟨hl, -⟩ := mem_misread hm
  · exact Path.notMem_of_forall w.isNameChar_of_mem h hs
  · omega

/-- Whether a character is one of ASCII that no spelling has. -/
def IsForeign (c : Char) : Prop := isNameChar c = false ∧ c.toNat < 128 ∧ c ∉ ['.', '/']

instance (c : Char) : Decidable (IsForeign c) :=
  inferInstanceAs (Decidable (isNameChar c = false ∧ c.toNat < 128 ∧ c ∉ ['.', '/']))

private theorem notMem_spelling {c : Char} (h : IsForeign c) : c ∉ w.spelling := by
  have hdots : c ≠ '.' ∧ c ≠ '/' := by simpa using h.2.2
  rw [spelling, List.mem_cons, List.mem_cons, not_or, not_or]
  exact ⟨hdots.1, hdots.2, notMem_misread h.1 h.2.1⟩

private theorem nextLine_of_mem_misread {c : Char} (h : c ∈ misread w.stem.toList)
    (hb : isLineBreak c = true) : c = nextLine := by
  obtain ⟨hs, -⟩ | hc := mem_misread h
  · rw [isLineBreak_of_isNameChar (w.isNameChar_of_mem c hs)] at hb
    cases hb
  · simp only [isLineBreak, Bool.or_eq_true, Bool.and_eq_true, decide_eq_true_eq, beq_iff_eq] at hb
    have hpoint : c.toNat = 0x85 := by omega
    rw [← Char.ofNat_toNat c, hpoint]
    rfl

/-- The text of the log as it is read: the name comes out misread, and what stands behind it is the
last line. -/
private theorem exists_text_log {ending : String} (h : ending ∈ ["", "\n", "\r\n"]) :
    ∃ t, unifyBreaks (latin1 (utf8Encode (w.logLine ++ ending))) = w.spelling ++ t ∧
      lines t = [w.tail] := by
  have hline : IsLine w.tail := fun c hc => isLineBreak_of_printable (range_of_mem_tail hc)
  have htail : misread w.tail = w.tail := misread_eq_self fun c hc => by
    have hr := range_of_mem_tail hc
    omega
  have hreturn : '\r' ∉ w.tail := fun hc => absurd (range_of_mem_tail hc) (by decide)
  have hdots : misread ['.', '/'] = ['.', '/'] := by decide
  have hread : latin1 (utf8Encode (w.logLine ++ ending)) =
      w.spelling ++ (w.tail ++ misread ending.toList) := by
    have hsplit : w.logLine.toList = ['.', '/'] ++ (w.stem.toList ++ w.tail) := toList_logLine
    rw [latin1_utf8Encode, String.toList_append, misread_append, hsplit, misread_append,
      misread_append, hdots, htail]
    simp [spelling]
  rw [hread, unifyBreaks_append (notMem_spelling (by decide)), unifyBreaks_append hreturn]
  refine ⟨_, rfl, ?_⟩
  have hends : ∀ ending ∈ ["", "\n", "\r\n"],
      unifyBreaks (misread ending.toList) = [] ∨ unifyBreaks (misread ending.toList) = ['\n'] := by
    decide
  obtain he | he := hends ending h <;> rw [he]
  · rw [List.append_nil, lines_eq_singleton hline (by simp [tail])]
  · exact lines_append_feed hline []

/-- The lines of the log: the error stands on the last one, behind what is left of the name. -/
private theorem exists_lines_log {ending : String} (h : ending ∈ ["", "\n", "\r\n"]) :
    ∃ front p name, w.Spelled p name ∧ (∀ l ∈ front, l ⊆ w.spelling) ∧
      lines (unifyBreaks (latin1 (utf8Encode (w.logLine ++ ending)))) = front ++ [p ++ w.tail] := by
  obtain ⟨t, htext, ht⟩ := exists_text_log (w := w) h
  obtain ⟨front, p, hlines, hsub, ⟨-, rfl⟩ | ⟨-, q, c, hc, hq⟩⟩ :=
    exists_lines_append (notMem_spelling (by decide)) ht
  · exact ⟨front, _, _, .whole, hsub, htext ▸ hlines⟩
  · -- the break is not one of the two characters in front of the name
    obtain ⟨q', hq'⟩ : ∃ q', misread w.stem.toList = q' ++ c :: p := by
      rcases q with _ | ⟨a, _ | ⟨b, q'⟩⟩
      · cases hq
        exact absurd hc (by decide)
      · cases hq
        exact absurd hc (by decide)
      · exact ⟨q', (List.cons.inj (List.cons.inj hq).2).2⟩
    obtain rfl := nextLine_of_mem_misread (hq' ▸ List.mem_append_right q' List.mem_cons_self) hc
    exact ⟨front, p, p, .behind hq', hsub, htext ▸ hlines⟩

/-! ### The entry of the log -/

/-- The error in the file that is read from the log. -/
def entryAt (w : WovenError) (name : List Char) : Entry :=
  ⟨.error, some (w.dir.child (String.ofList name ++ ".tex")), w.line, w.message⟩

variable {p name : List Char}

private theorem Spelled.subset (h : w.Spelled p name) :
    name ⊆ misread w.stem.toList ∧ p ⊆ w.spelling := by
  cases h with
  | whole => exact ⟨List.Subset.refl _, List.Subset.refl _⟩
  | behind h =>
    rw [spelling, h]
    exact ⟨fun c hc => by simp [hc], fun c hc => by simp [hc]⟩

private theorem Spelled.isName (h : w.Spelled p name) :
    Path.IsName (String.ofList name ++ ".tex") := by
  refine Path.isName_tex.append ?_
  rw [String.toList_ofList]
  exact fun hm => notMem_misread (by decide) (by decide) (h.subset.1 hm)

/-- The name on the last line is read from the directory of the log. -/
private theorem Spelled.resolveIn_eq (h : w.Spelled p name) :
    w.dir.resolveIn (String.ofList (p ++ ".tex".toList)) =
      w.dir.child (String.ofList name ++ ".tex") := by
  have hchild : w.dir.child (String.ofList (p ++ ".tex".toList)) =
      w.dir.child (String.ofList name ++ ".tex") := by
    rw [← @String.ofList_toList ".tex", ← String.ofList_append]
    have hslash := h.isName.no_slash
    cases h with
    | whole =>
      refine Path.child_dotSlash w.dir ?_
      simpa using hslash
    | behind h => rw [String.toList_ofList]
  rw [Path.resolveIn, hchild, (w.settled.child h.isName).normalize_eq]

private theorem Spelled.notMem (h : w.Spelled p name) {c : Char} (hc : IsForeign c) :
    c ∉ p ++ ".tex".toList := by
  have htex : ∀ d ∈ ".tex".toList, ¬ IsForeign d := by decide
  rw [List.mem_append, not_or]
  exact ⟨fun hp => notMem_spelling hc (h.subset.2 hp), fun ht => htex c ht hc⟩

/-- Whether a name is left is told by its first character. -/
private theorem Spelled.isFileName_eq {c : Char} (h : w.Spelled (c :: p) name) :
    TexLine.isFileName (c :: p ++ ".tex".toList) = !isBlank c :=
  TexLine.isFileName_append (by decide : "tex".toList ≠ []) (by decide) (h.notMem (by decide))
    (h.notMem (by decide))

/-- A name in ASCII is not broken. -/
private theorem not_behind_of_ascii (h : ∀ c ∈ w.stem.toList, c.toNat < 128) {q name : List Char} :
    misread w.stem.toList ≠ q ++ nextLine :: name := by
  intro hq
  rw [misread_eq_self h] at hq
  refine absurd (?_ : nextLine ∈ w.stem.toList)
    (Path.notMem_of_forall w.isNameChar_of_mem (by decide +kernel))
  rw [hq]
  simp

/-- Only a name in ASCII comes out as it is. -/
private theorem Spelled.eq_stem_iff (h : w.Spelled p name) :
    name = w.stem.toList ↔ ∀ c ∈ w.stem.toList, c.toNat < 128 := by
  cases h with
  | whole => exact ⟨ascii_of_misread_eq_self, misread_eq_self⟩
  | behind h =>
    refine ⟨?_, fun hascii => absurd h (not_behind_of_ascii hascii)⟩
    rintro rfl
    exact ascii_of_misread_eq_append
      (Path.notMem_of_forall w.isNameChar_of_mem (by decide +kernel)) h

/-- A name that comes out as it is starts an error. -/
private theorem Spelled.isFileName_of_eq_stem (h : w.Spelled p name)
    (hname : name = w.stem.toList) : TexLine.isFileName (p ++ ".tex".toList) = true := by
  have hascii := h.eq_stem_iff.mp hname
  cases h with
  | whole => exact Spelled.whole.isFileName_eq
  | behind h => exact absurd h (not_behind_of_ascii hascii)

/-- The last line of the log, cut where TeX puts the colons. -/
private theorem append_tail_eq (p : List Char) : p ++ w.tail = p ++ ".tex".toList ++
    ':' :: (decimal w.line ++ ':' :: ' ' :: (w.message.toList ++ ['.'])) := by
  rw [tail, List.append_assoc]

/-- Where a name is left, the last line is an error in the file of this name. -/
private theorem entriesOfLines_of_isFileName (h : w.Spelled p name) {files : FileStack}
    (hf : files.baseDir = w.dir) (hp : TexLine.isFileName (p ++ ".tex".toList) = true) :
    TexLog.entriesOfLines files [p ++ w.tail] =
      (readDigits (decimal w.line)).map fun n => [{ w.entryAt name with line := n }] := by
  have hkind := TexLine.ofChars_of_isFileName hp (h.notMem (by decide)) (decimal_ne_nil w.line)
    (fun _ => isDigit_of_mem_decimal) (List.append_ne_nil_of_right_ne_nil w.message.toList
      (List.cons_ne_nil '.' []))
  have hmessage : TexLog.cleanMessage (w.message.toList ++ ['.']) = w.message.toList :=
    TexLog.cleanMessage_append_stop (fun hn => w.message_ne (String.toList_eq_nil_iff.mp hn))
      w.trimmed w.no_stop
  rw [append_tail_eq, TexLog.entriesOfLines, hkind, TexLog.entryOfLine, hmessage, hf,
    h.resolveIn_eq, String.ofList_toList]
  cases readDigits (decimal w.line) <;> rfl

/-- Where none is left, the last line is no error. -/
private theorem entriesOfLines_of_not_isFileName (h : w.Spelled p name) {files : FileStack}
    (hp : TexLine.isFileName (p ++ ".tex".toList) = false) :
    TexLog.entriesOfLines files [p ++ w.tail] = .ok [] := by
  have hfile : TexLine.fileError? (p ++ w.tail) = none := by
    refine TexLine.fileError?_eq_none fun file rest hcut => ?_
    rw [append_tail_eq, cutFirst?_append (h.notMem (by decide))] at hcut
    cases hcut
    exact hp
  have hkind : TexLine.ofChars (p ++ w.tail) = .plain := by
    cases p with
    | nil => exact TexLine.ofChars_plain hfile (by decide)
    | cons c p =>
      refine TexLine.ofChars_plain hfile fun hc => ?_
      have hblank : ∀ c ∈ ['!', 'L', 'P', 'C', 'O', 'U'], isBlank c = false := by decide
      rw [h.isFileName_eq, hblank c hc] at hp
      cases hp
  rw [TexLog.entriesOfLines_plain hkind]
  rfl

/-- What the log contributes: the error, if a name is left on the last line and the number of the
line is short. -/
private theorem contribution_log (h : w.StandsIn t here) : ∃ p name, w.Spelled p name ∧
    contribution (TexLog.load t here (w.file ".log")) =
      if TexLine.isFileName (p ++ ".tex".toList) = true ∧ w.line < Nat.pow 10 digitLimit then
        [w.entryAt name]
      else [] := by
  obtain ⟨ending, hmem, hread⟩ := h.log
  obtain ⟨front, p, name, hp, hsub, hlines⟩ := exists_lines_log (w := w) hmem
  have hplain : ∀ l ∈ front, TexLine.ofChars l = .plain ∧ balanced 0 l = true := by
    intro l hl
    have hno : ∀ c, IsForeign c → c ∉ l := fun c hc hm => notMem_spelling hc (hsub l hl hm)
    exact ⟨TexLine.ofChars_eq_plain (hno ' ' (by decide)) (hno ':' (by decide)),
      balanced_of_notMem (hno '(' (by decide)) (hno ')' (by decide))⟩
  have hparent : (w.file ".log").parent = w.dir := parent_file ⟨by decide, by decide⟩
  refine ⟨p, name, hp, ?_⟩
  rw [TexLog.load, readLogText, hread, hparent]
  simp only [mapError_ok, bind, Except.bind, pure, Except.pure, TexLog.entries, hlines,
    TexLog.entriesOfLines_append_of_plain hplain]
  cases hname : TexLine.isFileName (p ++ ".tex".toList) with
  | false =>
    rw [entriesOfLines_of_not_isFileName hp hname]
    rfl
  | true =>
    rw [entriesOfLines_of_isFileName hp rfl hname]
    by_cases hl : w.line < Nat.pow 10 digitLimit
    · rw [readDigits_decimal hl, if_pos ⟨rfl, hl⟩]
      rfl
    · obtain ⟨e, he⟩ := exists_readDigits_decimal_eq_error hl
      rw [he, if_neg fun hn => hl hn.2]
      rfl

/-! ### Lines of the source -/

private theorem outputFile_eq : w.concordance.outputFile = some w.document := by
  rw [concordance, Concordance.PrintedEntry.concordance, w.output_eq, String.ofList_toList]
  rfl

private theorem inputFile_eq : w.concordance.inputFile = some w.source := by
  rw [concordance, Concordance.PrintedEntry.concordance, w.input_eq, String.ofList_toList]
  rfl

private theorem hasNul_child {stem : List Char} (h : '\x00' ∉ stem) :
    (w.dir.child (String.ofList stem ++ ".tex")).hasNul = false := by
  refine Path.hasNul_child w.hasNul_dir ?_
  rw [String.toList_append, String.toList_ofList, List.mem_append, not_or]
  exact ⟨h, by decide⟩

/-- The concordance is for the file that the error is in just if the name comes out as it is. -/
private theorem mapsFile_eq (h : w.Spelled p name) :
    w.concordance.mapsFile here (w.dir.child (String.ofList name ++ ".tex")) =
      .ok (decide (name = w.stem.toList)) := by
  have hempty : w.concordance.isEmpty = false := (Concordance.covers_iff.mp w.covers_line).1
  have hname : '\x00' ∉ name := fun hm => notMem_misread (by decide) (by decide) (h.subset.1 hm)
  have hdocument : w.document.hasNul = false := by
    rw [document, file, ← @String.ofList_toList w.stem]
    exact hasNul_child (Path.notMem_of_forall w.isNameChar_of_mem (by decide))
  rw [Concordance.mapsFile_of_outputFile hempty outputFile_eq, hasNul_child hname, hdocument,
    if_neg (by simp), Except.ok.injEq, Bool.eq_iff_iff, beq_iff_eq, document, file,
    w.settled.locate_child_eq_iff h.isName (isName_file Path.isName_tex)]
  simp [← String.toList_inj]

private theorem remap_entryAt (h : w.Spelled p name) :
    (w.entryAt name).remap here w.concordance =
      .ok (if name = w.stem.toList then ⟨.error, some w.source, w.sourceLine, w.message⟩
        else w.entryAt name) := by
  have hcovers : w.concordance.covers (w.entryAt name).line = true := w.covers_line
  rw [Entry.remap_of_mapsFile rfl (mapsFile_eq h), hcovers, Bool.and_true]
  simp only [decide_eq_true_eq, inputFile_eq]
  rfl

/-- An error in a file of the directory is shown with the name of the file. -/
private theorem format_child {file : String} (hf : Path.IsName file) (line : Int) :
    Entry.format w.dir ⟨.error, some (w.dir.child file), line, w.message⟩ =
      if line.natAbs < Nat.pow 10 digitLimit then
        .ok (file ++ " (line " ++ toString line ++ "): " ++ w.message)
      else .error .tooLongToWrite := by
  have hshown : toString (displayFile w.dir (w.dir.child file)) = file := by
    rw [displayFile, w.settled.normalize_eq, Path.relativeTo?_child hf]
    exact String.empty_append
  rw [Entry.format, writeInt?]
  by_cases hl : line.natAbs < Nat.pow 10 digitLimit
  · rw [if_pos hl, if_pos hl]
    simp only [hshown]
  · rw [if_neg hl, if_neg hl]

/-- An error in the document is not shown as one in the source. -/
private theorem shown_ne (line line' : Int) (h : '.' ∉ name) :
    String.ofList name ++ ".tex" ++ " (line " ++ toString line ++ "): " ++ w.message ≠
      w.stem ++ ".Rnw" ++ " (line " ++ toString line' ++ "): " ++ w.message := by
  intro heq
  have hcut := congrArg (fun s => cutFirst? '.' s.toList) heq
  have hdot : '.' ∉ w.stem.toList := Path.notMem_of_forall w.isNameChar_of_mem (by decide)
  simp only [String.toList_append, String.toList_ofList, List.append_assoc] at hcut
  rw [show ".tex".toList = '.' :: "tex".toList from rfl,
    show ".Rnw".toList = '.' :: "Rnw".toList from rfl, List.cons_append,
    List.cons_append, cutFirst?_append h, cutFirst?_append hdot] at hcut
  exact absurd (congrArg (fun cut => (cut.map fun c => c.2.head?).join) hcut) (by simp)

/-- What is shown of the log: the error, if it is read, as the concordance tells it. -/
private theorem lines_collect (h : w.StandsIn t here) (past : List Note) :
    ∃ p name, w.Spelled p name ∧
      (Diagnostics.collect here w.document w.concordance past t).result >>= Diagnostics.lines =
        if TexLine.isFileName (p ++ ".tex".toList) = true ∧ w.line < Nat.pow 10 digitLimit then
          ((w.entryAt name).remap here w.concordance >>= Entry.format w.dir).map ([·])
        else .ok [] := by
  obtain ⟨p, name, hp, hlog⟩ := contribution_log h
  have hbibtex : contribution (BibtexLog.load t here (w.file ".blg")) = [] :=
    contribution_of_absent BibtexLog.exists_read_of_load (.inl h.bibtex)
  have hparent : w.document.parent = w.dir := parent_file Path.isName_tex
  refine ⟨p, name, hp, ?_⟩
  rw [Diagnostics.result_collect, texLogPath, bibtexLogPath, sibling_document, sibling_document,
    hlog, hbibtex, hparent]
  split
  · rw [List.mapM_cons]
    cases (w.entryAt name).remap here w.concordance with
    | error crash => rfl
    | ok e =>
      change ([e] ++ []).mapM (Entry.format w.dir) = (Entry.format w.dir e).map ([·])
      rw [List.append_nil, List.mapM_cons]
      cases Entry.format w.dir e <;> rfl
  · rfl

/-- **An error is reported at its source** just if the name of the document is ASCII and the numbers
of the two lines are short enough to be read and written. -/
theorem lines_collect_iff (h : w.StandsIn t here) (past : List Note) :
    Concordance.load t here (Concordance.fileFor w.source) = .ok w.concordance ∧
      ((Diagnostics.collect here w.document w.concordance past t).result >>= Diagnostics.lines =
          .ok [w.report] ↔
        (∀ c ∈ w.stem.toList, c.toNat < 128) ∧ w.line < Nat.pow 10 digitLimit ∧
          w.sourceLine.natAbs < Nat.pow 10 digitLimit) := by
  refine ⟨load_concordance h, ?_⟩
  obtain ⟨p, name, hp, hlines⟩ := lines_collect h past
  rw [hlines, remap_entryAt hp, ← hp.eq_stem_iff]
  change (if _ then (Entry.format w.dir _).map ([·]) else .ok []) = .ok [w.report] ↔ _
  by_cases hname : name = w.stem.toList
  · -- the error is told in terms of the source
    rw [if_pos hname, source, file, format_child (isName_file isName_rnw)]
    simp only [hp.isFileName_of_eq_stem hname, hname, true_and]
    by_cases hl : w.line < Nat.pow 10 digitLimit
    · by_cases hk : w.sourceLine.natAbs < Nat.pow 10 digitLimit
      · rw [if_pos hl, if_pos hk]
        exact iff_of_true rfl ⟨hl, hk⟩
      · rw [if_pos hl, if_neg hk]
        exact iff_of_false (by simp [Except.map]) fun hn => hk hn.2
    · rw [if_neg hl]
      exact iff_of_false (by simp) fun hn => hl hn.1
  · -- the error stays in the document, under the name that came out
    have hdot : '.' ∉ name := fun hm => notMem_misread (by decide) (by decide) (hp.subset.1 hm)
    rw [if_neg hname, entryAt, format_child hp.isName]
    refine iff_of_false (fun hok => ?_) fun hn => hname hn.1
    split at hok
    · split at hok
      · exact shown_ne _ _ hdot (List.singleton_inj.mp (Except.ok.inj hok))
      · cases hok
    · cases hok

/-! ### Two documents -/

/-- An error in the second line of a document, which comes from the eighth line of its source. -/
def undefinedIn (stem : String) (hs : stem ≠ "" ∧ ∀ c ∈ stem.toList, isNameChar c = true)
    (output input : Concordance.EntryName) (ho : output.text = (stem ++ ".tex").toList)
    (hi : input.text = (stem ++ ".Rnw").toList) : WovenError where
  dir := Path.ofString "/d"
  settled := ⟨by decide, by decide, by decide⟩
  hasNul_dir := by decide
  stem := stem
  stem_ne := hs.1
  isNameChar_of_mem := hs.2
  entry :=
    { output, input
      offset := none
      opening := []
      first := ⟨7, lt_pow_of_le (by decide)⟩
      runs := [⟨⟨2, lt_pow_of_le (by decide)⟩, by decide, ⟨1, lt_pow_of_le (by decide)⟩,
        ⟨[.blank ' ' rfl], by decide⟩, ⟨[.blank ' ' rfl], by decide⟩⟩] }
  output_eq := ho
  input_eq := hi
  line := 2
  covers_line := rfl
  message := "Undefined control sequence"
  message_ne := by decide
  trimmed := by decide +kernel
  no_stop := by decide
  printable := by decide

/-- The tree that holds the concordance file and the log of an error, and nothing else. -/
def tree (w : WovenError) : Tree :=
  let put (ending : String) (content : String) (t : Tree) : Tree :=
    (t.provide w.dir (w.file ending) (some (utf8Encode content))).toOption.getD t
  put ".log" w.logLine (put "-concordance.tex" (String.ofList w.entry.text) ∅)

/-- A concordance file may hold one entry alone. -/
private theorem standsIn_of_read (hbreaks : unifyBreaks w.entry.text = w.entry.text)
    (hc : t.read here (w.file "-concordance.tex") =
      .ok (utf8Encode (String.ofList w.entry.text)))
    (hl : t.read here (w.file ".log") = .ok (utf8Encode w.logLine))
    (hb : t.contains here (w.file ".blg") = false) : w.StandsIn t here where
  concordance := by
    have hnone : ¬ Concordance.entryLead <:+: [] := by decide
    refine ⟨⟨⟨[], hnone⟩, [(w.entry, ⟨[], hnone⟩)]⟩, _, ⟨[], hnone⟩, [], rfl, ?_, hc⟩
    rw [String.toList_ofList, hbreaks]
    simp [Concordance.PrintedFile.text, Concordance.entriesText]
  log := ⟨"", by simp, by rw [hl, String.append_empty]⟩
  bibtex := hb

/-- A document whose name is ASCII. -/
def plainName : WovenError :=
  undefinedIn "r" (by decide)
    ⟨"r.tex".toList, by decide, by decide +kernel, by decide, by decide, by decide⟩
    ⟨"r.Rnw".toList, by decide, by decide +kernel, by decide, by decide, by decide⟩ rfl rfl

private theorem standsIn_plainName : plainName.StandsIn plainName.tree (Path.ofString "/") :=
  standsIn_of_read (by decide +kernel) (by decide +kernel) (by decide +kernel) (by decide +kernel)

/-- An error in a document with a plain name is reported at its source. -/
theorem lines_collect_plainName :
    plainName.StandsIn plainName.tree (Path.ofString "/") ∧
      (Diagnostics.collect (Path.ofString "/") plainName.document plainName.concordance []
        plainName.tree).result >>= Diagnostics.lines =
          .ok ["r.Rnw (line 8): Undefined control sequence"] :=
  ⟨standsIn_plainName, ((lines_collect_iff standsIn_plainName []).2.mpr
    ⟨by decide, lt_pow_of_le (by decide), lt_pow_of_le (by decide)⟩).trans (by decide +kernel)⟩

/-- A document whose name is not ASCII. -/
def accentedName : WovenError :=
  undefinedIn "é" (by decide +kernel)
    ⟨"é.tex".toList, by decide, by decide +kernel, by decide, by decide, by decide⟩
    ⟨"é.Rnw".toList, by decide, by decide +kernel, by decide, by decide, by decide⟩ rfl rfl

private theorem standsIn_accentedName : accentedName.StandsIn accentedName.tree
    (Path.ofString "/") :=
  standsIn_of_read (by decide +kernel) (by decide +kernel) (by decide +kernel) (by decide +kernel)

/-- **An error in a document with an accented name stays in the document**, and the name is not the
one of the document either. -/
theorem lines_collect_accentedName :
    accentedName.StandsIn accentedName.tree (Path.ofString "/") ∧
      accentedName.report = "é.Rnw (line 8): Undefined control sequence" ∧
      Concordance.load accentedName.tree (Path.ofString "/")
        (Concordance.fileFor accentedName.source) = .ok accentedName.concordance ∧
      (Diagnostics.collect (Path.ofString "/") accentedName.document accentedName.concordance []
        accentedName.tree).result >>= Diagnostics.lines =
          .ok ["Ã©.tex (line 2): Undefined control sequence"] :=
  ⟨standsIn_accentedName, by decide +kernel, load_concordance standsIn_accentedName,
    by decide +kernel⟩

end WovenError

end Galley
