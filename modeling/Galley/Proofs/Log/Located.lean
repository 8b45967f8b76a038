import Galley.Proofs.Log.Report
import Galley.Proofs.Log.Tex
import Galley.Proofs.Log.TexLine
import Galley.Proofs.Text.Lines

/-!
# Errors that name their file

TeX can be told to print an error as `file:line: message`. `LocatedError` has the parts of such a
line, with what must hold of them. A log of one line reports an error just if the line has such
parts, the parts are unique, and they are what the entry says (`entries_of_located`).

A file name may have several dots and blanks in it, and a message several colons. That the parts are
unique rests on three cuts: at the first colon, at the last dot in front of it, and at the end of
the digits behind it.
-/

namespace Galley

open Text

/-! ### Lines that name a file -/

namespace TexLine

/-- The extension of a file name stands behind its last dot. -/
theorem exists_of_isFileName {s : List Char} (h : isFileName s = true) : ∃ q w, s = q ++ '.' :: w ∧
    q ≠ [] ∧ (∀ c ∈ q.head?, isBlank c = false) ∧ w ≠ [] ∧ (∀ c ∈ w, isWordChar c = true) ∧
      '(' ∉ s ∧ ')' ∉ s := by
  rw [isFileName] at h
  split at h
  · next c q d w hcut =>
    simp only [Bool.and_eq_true, Bool.not_eq_true', List.all_eq_true, List.contains_eq_mem,
      decide_eq_false_iff_not] at h
    obtain ⟨⟨⟨hblank, hopen⟩, hclose⟩, hword⟩ := h
    refine ⟨c :: q, d :: w, (cutLast?_eq_some_iff.mp hcut).1, List.cons_ne_nil c q, ?_,
      List.cons_ne_nil d w, hword, hopen, hclose⟩
    rintro _ ⟨⟩
    exact hblank
  · cases h

/-- No other kind of line names the file of an error. -/
private theorem ne_fileError_of_other {s : List Char} {kind : TexLine}
    (h : (error? s).or ((warning? s).or (badBox? s)) = some kind)
    (file number message : List Char) : kind ≠ .fileError file number message := by
  rintro rfl
  obtain he | ⟨-, h⟩ := Option.or_eq_some_iff.mp h
  · obtain ⟨m, -, he⟩ := Option.bind_eq_some_iff.mp he
    obtain ⟨⟨⟩, -, he⟩ := Option.bind_eq_some_iff.mp he
    have hkind := Option.some.inj he
    split at hkind <;> cases hkind
  obtain hw | ⟨-, hb⟩ := Option.or_eq_some_iff.mp h
  · obtain ⟨rest, -, hw⟩ := Option.bind_eq_some_iff.mp hw
    obtain ⟨m, -, hw⟩ := Option.bind_eq_some_iff.mp hw
    obtain ⟨⟨⟩, -, hw⟩ := Option.bind_eq_some_iff.mp hw
    cases hw
  · obtain ⟨lead, -, hb⟩ := List.exists_of_findSome?_eq_some hb
    obtain ⟨rest, -, hb⟩ := Option.bind_eq_some_iff.mp hb
    obtain ⟨cut, -, hb⟩ := Option.bind_eq_some_iff.mp hb
    cases hb

private theorem fileError?_of_ofChars_eq {s file number message : List Char}
    (h : ofChars s = .fileError file number message) :
    fileError? s = some (.fileError file number message) := by
  rw [ofChars] at h
  cases hf : fileError? s with
  | some kind =>
    rw [hf] at h
    exact congrArg some h
  | none =>
    rw [hf, Option.none_or] at h
    cases ho : (error? s).or ((warning? s).or (badBox? s)) with
    | some kind =>
      rw [ho] at h
      exact absurd h (ne_fileError_of_other ho file number message)
    | none =>
      rw [ho] at h
      cases h

end TexLine

/-! ### The parts of a line -/

/-- The parts of a line that reports an error in a file: the name of the file and its extension, a
number that can be read, and a message. -/
@[ext]
structure LocatedError where
  name : List Char
  extension : List Char
  number : List Char
  message : List Char
  name_ne_nil : name ≠ []
  not_isBlank_head : ∀ c ∈ name.head?, isBlank c = false
  colon_notMem : ':' ∉ name
  opening_notMem : '(' ∉ name
  closing_notMem : ')' ∉ name
  extension_ne_nil : extension ≠ []
  isWordChar_of_mem : ∀ c ∈ extension, isWordChar c = true
  isNumeral : IsNumeral number
  message_ne_nil : message ≠ []

namespace LocatedError

variable (e : LocatedError)

/-- The file that the line names. -/
def file : List Char := e.name ++ '.' :: e.extension

/-- The line that reports the error. -/
def text : List Char := e.file ++ ':' :: (e.number ++ ':' :: ' ' :: e.message)

variable {e}

private theorem notMem_file {c : Char} (hc : isWordChar c = false) (hdot : c ≠ '.')
    (hn : c ∉ e.name) : c ∉ e.file := by
  rw [file, List.mem_append, List.mem_cons, not_or, not_or]
  refine ⟨hn, hdot, fun hm => ?_⟩
  rw [e.isWordChar_of_mem c hm] at hc
  cases hc

private theorem colon_notMem_file : ':' ∉ e.file :=
  notMem_file (by decide) (by decide) e.colon_notMem

private theorem isFileName_file : TexLine.isFileName e.file = true := by
  have hopen : '(' ∉ e.file := notMem_file (by decide) (by decide) e.opening_notMem
  have hclose : ')' ∉ e.file := notMem_file (by decide) (by decide) e.closing_notMem
  have hblank := e.not_isBlank_head
  rw [file] at hopen hclose ⊢
  obtain ⟨c, q, hname⟩ := List.exists_cons_of_ne_nil e.name_ne_nil
  rw [hname] at hblank hopen hclose ⊢
  rw [TexLine.isFileName_append e.extension_ne_nil e.isWordChar_of_mem hopen hclose,
    hblank c rfl]
  rfl

private theorem ofChars_text : TexLine.ofChars e.text = .fileError e.file e.number e.message :=
  TexLine.ofChars_of_isFileName isFileName_file colon_notMem_file e.isNumeral.ne_nil
    e.isNumeral.isDigit_of_mem e.message_ne_nil

private theorem text_ne_nil : e.text ≠ [] := by
  rw [text]
  exact List.append_ne_nil_of_right_ne_nil _ (List.cons_ne_nil _ _)

/-- The parts of a line are unique. -/
theorem text_injective {e e' : LocatedError} (h : e.text = e'.text) : e = e' := by
  have hkind : TexLine.fileError e.file e.number e.message =
      .fileError e'.file e'.number e'.message := by
    rw [← ofChars_text, ← ofChars_text, h]
  obtain ⟨hfile, hnumber, hmessage⟩ := TexLine.fileError.inj hkind
  have hcut := cutLast?_eq_some_iff.mpr ⟨hfile, notMem_of_isWordChar e'.isWordChar_of_mem⟩
  rw [file, cutLast?_eq_some_iff.mpr ⟨rfl, notMem_of_isWordChar e.isWordChar_of_mem⟩] at hcut
  obtain ⟨hname, hextension⟩ := Prod.mk.inj (Option.some.inj hcut)
  exact LocatedError.ext hname hextension hnumber hmessage

/-- What reads as an error in a file has these parts, if its number can be read. -/
private theorem exists_text_eq {s f d m : List Char} {n : Nat}
    (h : TexLine.ofChars s = .fileError f d m)
    (hn : readDigits d = .ok n) : ∃ e : LocatedError, e.text = s := by
  obtain ⟨_, _, _, ⟨⟩, hfile, hcolon, hne, hdigit, hm, hs⟩ :=
    TexLine.exists_of_fileError?_eq_some (TexLine.fileError?_of_ofChars_eq h)
  obtain ⟨q, w, rfl, hq, hblank, hw, hword, hopen, hclose⟩ := TexLine.exists_of_isFileName hfile
  have hname : ∀ c, c ∉ q ++ '.' :: w → c ∉ q := fun c hc hmem =>
    hc (List.mem_append_left _ hmem)
  exact ⟨⟨q, w, d, m, hq, hblank, hname _ hcolon, hname _ hopen, hname _ hclose, hw, hword,
    (isNumeral_of_readDigits hne hdigit hn).1, hm⟩, hs.symm⟩

end LocatedError

/-! ### Messages -/

/-- A text without the full stop at its end, if it does not end in an ellipsis. -/
def withoutStop (s : List Char) : List Char :=
  if ['.'] <:+ s ∧ ¬ ['.', '.'] <:+ s then s.dropLast else s

/-- Read from its end, a text starts with its full stop. -/
private theorem withoutStop_reverse (r : List Char) : withoutStop r.reverse =
    (if ['.'] <+: r ∧ ¬ ['.', '.'] <+: r then r.tail else r).reverse := by
  have hstop : ['.'] <:+ r.reverse ↔ ['.'] <+: r := @List.reverse_suffix Char ['.'] r
  have hellipsis : ['.', '.'] <:+ r.reverse ↔ ['.', '.'] <+: r :=
    @List.reverse_suffix Char ['.', '.'] r
  simp only [withoutStop, hstop, hellipsis, List.dropLast_reverse]
  split <;> rfl

private theorem TexLog.cleanMessage_eq_withoutStop (m : List Char) :
    cleanMessage m = withoutStop (trim m) := by
  rw [cleanMessage, ← (trim m).reverse_reverse, withoutStop_reverse, List.reverse_reverse]
  split
  · next r hr => rw [hr, if_neg (by simp)]
  · next r hno hr =>
    have hstop : ¬ ['.', '.'] <+: '.' :: r := by
      rintro ⟨t, ht⟩
      exact hno t (List.cons.inj ht).2.symm
    rw [hr, if_pos ⟨by simp, hstop⟩, List.tail_cons]
  · next hno =>
    have hstop : ¬ ['.'] <+: (trim m).reverse := by
      rintro ⟨t, ht⟩
      exact hno t ht.symm
    rw [if_neg fun h => hstop h.1]

/-! ### The main result -/

/-- The entry of a line that reports an error in a file. -/
def LocatedError.entry (baseDir : Path) (e : LocatedError) : Entry :=
  ⟨.error, some (baseDir.resolveIn (String.ofList e.file)), digitsValue e.number,
    String.ofList (withoutStop (trim e.message))⟩

namespace TexLog

/-- The only line of a log has no line behind it that could show a place. -/
private theorem exists_text_of_mem {s : List Char} {files : FileStack} {es : List Entry}
    (h : entriesOfLines files [s] = .ok es) {entry : Entry} (he : entry ∈ es)
    (hk : entry.kind = .error) : ∃ e : LocatedError, e.text = s := by
  obtain ⟨files', front, line, behind, hs, hr⟩ := exists_reports_of_mem h he
  obtain ⟨rfl, hs⟩ : front = [] ∧ [s] = line :: behind := by
    cases front with
    | nil => exact ⟨rfl, hs⟩
    | cons _ front => simp at hs
  cases hs
  generalize hkind : TexLine.ofChars s = kind at hr
  cases hr with
  | fileError hn => exact LocatedError.exists_text_eq hkind hn
  | error hp => cases hp
  | warning | badBox => cases hk

private theorem entriesOfLines_text (e : LocatedError) (files : FileStack) :
    entriesOfLines files [e.text] = .ok [e.entry files.baseDir] := by
  have hentry : entryOfLine files (.fileError e.file e.number e.message) [] =
      .ok (some (e.entry files.baseDir)) := by
    rw [entryOfLine, e.isNumeral.readDigits_eq, cleanMessage_eq_withoutStop]
    rfl
  rw [entriesOfLines_report LocatedError.ofChars_text (by simp) hentry]
  rfl

/-- **What reports an error by itself**: a line has an error entry just if it is the text of a
`LocatedError`, of one only, and then this is its entry. -/
theorem entries_of_located {s : List Char} (hs : IsLine s) (baseDir mainFile : Path) :
    ((∃ es, entries s baseDir mainFile = .ok es ∧ ∃ entry ∈ es, entry.kind = .error) ↔
        ∃ e : LocatedError, e.text = s) ∧
      (∀ e e' : LocatedError, e.text = s → e'.text = s → e = e') ∧
      ∀ e : LocatedError, e.text = s → entries s baseDir mainFile = .ok [e.entry baseDir] := by
  have hentries : ∀ e : LocatedError, e.text = s →
      entries s baseDir mainFile = .ok [e.entry baseDir] := by
    rintro e rfl
    rw [entries, lines_eq_singleton hs LocatedError.text_ne_nil]
    exact entriesOfLines_text e _
  refine ⟨⟨?_, fun ⟨e, he⟩ => ⟨_, hentries e he, _, List.mem_singleton_self _, rfl⟩⟩,
    fun e e' he he' => LocatedError.text_injective (he.trans he'.symm), hentries⟩
  rintro ⟨es, h, entry, hmem, hkind⟩
  have hne : s ≠ [] := by
    rintro rfl
    cases h
    cases hmem
  rw [entries, lines_eq_singleton hs hne] at h
  exact exists_text_of_mem h hmem hkind

/-- An error in a file with blanks and several dots in its name, and a colon in its message. -/
def spacedError : LocatedError where
  name := "./my notes.v2".toList
  extension := "Rnw".toList
  number := "012".toList
  message := " Missing: item. ".toList
  name_ne_nil := by decide
  not_isBlank_head := by decide
  colon_notMem := by decide
  opening_notMem := by decide
  closing_notMem := by decide
  extension_ne_nil := by decide
  isWordChar_of_mem := by decide
  isNumeral := by decide
  message_ne_nil := by decide

theorem entries_of_located_spaced :
    IsLine "./my notes.v2.Rnw:012:  Missing: item. ".toList ∧
      entries "./my notes.v2.Rnw:012:  Missing: item. ".toList (Path.ofString "/doc")
          (Path.ofString "/doc/main.tex") =
        .ok [⟨.error, some (Path.ofString "/doc/my notes.v2.Rnw"), 12, "Missing: item"⟩] := by
  have hline : IsLine "./my notes.v2.Rnw:012:  Missing: item. ".toList := by decide
  exact ⟨hline, ((entries_of_located hline _ _).2.2 spacedError rfl).trans (by decide +kernel)⟩

end TexLog

end Galley
