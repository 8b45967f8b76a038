import Galley.Log.TexLine
import Galley.Proofs.Log.FileStack
import Galley.Proofs.Text.Numeral
import Mathlib.Data.List.TakeWhile
import Mathlib.Data.Option.Basic

/-!
# Lines of a TeX log by their spelling

The kind of each line that TeX prints about an error, a warning, a bad box or a file. The kinds
are tried in a fixed order, so each lemma has to rule out the kinds before its own; that a line
is no error with its own location is where it can fail, and `fileError?_eq_none` tells when it
does not.
-/

namespace Galley.TexLine

open Text

theorem guard_of {p : Prop} [Decidable p] (h : p) : (guard p : Option Unit) = some () :=
  (Option.guard_eq_some' ()).mpr h

private theorem guard_of_not {p : Prop} [Decidable p] (h : ¬ p) : (guard p : Option Unit) = none :=
  if_neg h

/-! ### Errors that name their file -/

/-- With an extension and without parentheses, it is the first character that decides. -/
theorem isFileName_append {c : Char} {q ext : List Char} (hne : ext ≠ [])
    (he : ∀ d ∈ ext, isWordChar d = true) (ho : '(' ∉ c :: q ++ '.' :: ext)
    (hc : ')' ∉ c :: q ++ '.' :: ext) : isFileName (c :: q ++ '.' :: ext) = !isBlank c := by
  have hcut : cutLast? '.' (c :: q ++ '.' :: ext) = some (c :: q, ext) :=
    cutLast?_eq_some_iff.mpr ⟨rfl, notMem_of_isWordChar he⟩
  have hall : ext.all isWordChar = true := List.all_eq_true.mpr he
  obtain ⟨d, ext, rfl⟩ := List.exists_cons_of_ne_nil hne
  rw [isFileName, hcut]
  simp only [hall, Bool.and_true, List.contains_eq_mem, decide_eq_false ho, decide_eq_false hc,
    Bool.not_false]

private theorem isFileName_of {name : List Char} (h : Galley.IsFileName name) :
    isFileName name = true := by
  obtain ⟨⟨q, w, rfl, hq, hw, hc⟩, hblank, hopen, hclose⟩ := h
  obtain ⟨c, q, rfl⟩ := List.exists_cons_of_ne_nil hq
  rw [isFileName_append hw hc hopen hclose, hblank c (by simp)]
  rfl

/-- What stands in front of the first colon decides whether an error names its file. -/
theorem fileError?_eq_none {s : List Char}
    (h : ∀ file rest, cutFirst? ':' s = some (file, rest) → isFileName file = false) :
    fileError? s = none := by
  rw [fileError?]
  cases hc : cutFirst? ':' s with
  | none => rfl
  | some cut =>
    obtain ⟨file, rest⟩ := cut
    have hname : ¬ isFileName file = true := by simp [h file rest hc]
    simp only [Option.bind_eq_bind, Option.bind_some, guard_of_not hname, Option.bind_none]

/-- An error that names its file has its number behind the first colon. -/
theorem exists_of_fileError?_eq_some {s : List Char} {kind : TexLine}
    (h : fileError? s = some kind) : ∃ file number message,
      kind = .fileError file number message ∧ isFileName file = true ∧ ':' ∉ file ∧ number ≠ [] ∧
        (∀ c ∈ number, isDigit c = true) ∧ message ≠ [] ∧
          s = file ++ ':' :: (number ++ ':' :: ' ' :: message) := by
  rw [fileError?] at h
  obtain ⟨⟨file, rest⟩, hcut, h⟩ := Option.bind_eq_some_iff.mp h
  obtain ⟨⟨⟩, hname, h⟩ := Option.bind_eq_some_iff.mp h
  obtain ⟨⟨⟩, hne, h⟩ := Option.bind_eq_some_iff.mp h
  obtain ⟨message, hlead, h⟩ := Option.bind_eq_some_iff.mp h
  obtain ⟨⟨⟩, hm, h⟩ := Option.bind_eq_some_iff.mp h
  obtain ⟨hs, hcolon⟩ := cutFirst?_eq_some_iff.mp hcut
  refine ⟨file, rest.takeWhile isDigit, message, (Option.some.inj h).symm,
    (Option.guard_eq_some' ()).mp hname, hcolon, (Option.guard_eq_some' ()).mp hne,
    fun c hc => List.mem_takeWhile_imp hc, (Option.guard_eq_some' ()).mp hm, ?_⟩
  have hrest : rest.dropWhile isDigit = ':' :: ' ' :: message := dropLead?_eq_some_iff.mp hlead
  rw [← hrest, List.takeWhile_append_dropWhile, hs]

theorem fileError?_eq_none_of_notMem {s : List Char} (h : ':' ∉ s) : fileError? s = none :=
  fileError?_eq_none fun file rest hc => by simp [cutFirst?_eq_none h] at hc

private theorem isFileName_eq_false {file : List Char}
    (h : '(' ∈ file) : isFileName file = false := by
  rw [isFileName]
  split
  · simp [h]
  · rfl

/-- Behind an opening parenthesis there is no file name to start an error with. -/
theorem fileError?_opening (s : List Char) : fileError? ('(' :: s) = none := by
  refine fileError?_eq_none fun file rest hc => ?_
  rw [cutFirst?, if_neg (by decide)] at hc
  obtain ⟨cut, -, heq⟩ := Option.map_eq_some_iff.mp hc
  have hfile : '(' :: cut.1 = file := congrArg Prod.fst heq
  exact isFileName_eq_false (hfile ▸ List.mem_cons_self)

/-- What starts with a file name, and digits between colons, is an error in that file. The digits
may be too many for a number to be read. -/
theorem ofChars_of_isFileName {name number message : List Char} (h : isFileName name = true)
    (hcolon : ':' ∉ name) (hne : number ≠ []) (hd : ∀ c ∈ number, isDigit c = true)
    (hm : message ≠ []) :
    ofChars (name ++ ':' :: (number ++ ':' :: ' ' :: message)) =
      .fileError name number message := by
  obtain ⟨htake, hdrop⟩ := takeWhile_append_cons (c := ':') (r := ' ' :: message) hd (by decide)
  have hfile : fileError? (name ++ ':' :: (number ++ ':' :: ' ' :: message)) =
      some (.fileError name number message) := by
    rw [fileError?, cutFirst?_append hcolon]
    simp only [Option.bind_eq_bind, Option.bind_some, guard_of h, htake, hdrop, guard_of hne]
    simp [dropLead?, guard_of hm]
  rw [ofChars, hfile]
  rfl

/-- `file:line: message` is an error in that file. -/
theorem ofChars_fileError {name number message : List Char} (h : Galley.IsFileName name)
    (hcolon : ':' ∉ name) (hn : IsNumeral number) (hm : message ≠ []) :
    ofChars (name ++ ':' :: (number ++ ':' :: ' ' :: message)) =
      .fileError name number message :=
  ofChars_of_isFileName (isFileName_of h) hcolon hn.ne_nil hn.isDigit_of_mem hm

/-! ### Errors that do not -/

/-- `! message` is an error whose place stands on a later line. -/
theorem ofChars_error {message : List Char} (hf : fileError? ('!' :: ' ' :: message) = none)
    (hm : message ≠ []) (hb : ∀ c ∈ message.head?, isBlank c = false) :
    ofChars ('!' :: ' ' :: message) = .error message := by
  have hgiven : dropLead? [' ', '=', '=', '>'] message = none := by
    cases message with
    | nil => exact absurd rfl hm
    | cons c rest =>
      have hc : ' ' ≠ c := by
        rintro rfl
        exact absurd (hb ' ' rfl) (by decide)
      exact if_neg hc
  have herror : error? ('!' :: ' ' :: message) = some (.error message) := by
    simp [error?, dropLead?, guard_of hm, hgiven]
  rw [ofChars, hf, herror]
  rfl

/-- A line that starts like no error, no warning and no bad box is plain, unless it names the
file of an error. -/
theorem ofChars_plain {c : Char} {s : List Char} (hf : fileError? (c :: s) = none)
    (hc : c ∉ ['!', 'L', 'P', 'C', 'O', 'U']) : ofChars (c :: s) = .plain := by
  simp only [List.mem_cons, List.not_mem_nil, or_false, not_or] at hc
  obtain ⟨h1, h2, h3, h4, h5, h6⟩ := hc
  have herror : error? (c :: s) = none := by
    simp [error?, dropLead?, Ne.symm h1]
  have hwarning : warning? (c :: s) = none := by
    simp [warning?, dropSource?, dropLead?, Ne.symm h2, Ne.symm h3, Ne.symm h4]
  have hbox : badBox? (c :: s) = none := by
    simp [badBox?, boxLeads, dropLead?, Ne.symm h5, Ne.symm h6]
  rw [ofChars, hf, herror, hwarning, hbox]
  rfl

/-- Every kind of report has a space in it, and an error in a file has a colon. -/
theorem ofChars_eq_plain {s : List Char} (hs : ' ' ∉ s) (hc : ':' ∉ s) : ofChars s = .plain := by
  have hlead : ∀ lead, ' ' ∈ lead → dropLead? lead s = none := by
    refine fun lead hl => dropLead?_eq_none ?_
    rintro ⟨r, rfl⟩
    exact hs (List.mem_append_left r hl)
  have herror : error? s = none := by
    rw [error?, hlead _ (by decide)]
    rfl
  have hwarning : warning? s = none := by
    rw [warning?, dropSource?, hlead "Package ".toList (by decide),
      hlead "Class ".toList (by decide)]
    cases hd : dropLead? "LaTeX".toList s with
    | none => rfl
    | some rest =>
      have hrest : dropLead? " Warning: ".toList rest = none := by
        refine dropLead?_eq_none ?_
        rintro ⟨r, rfl⟩
        refine hs ?_
        rw [dropLead?_eq_some_iff.mp hd]
        simp
      simp only [Option.bind_eq_bind, Option.bind_some, hrest, Option.bind_none]
  have hbox : badBox? s = none := by
    refine List.findSome?_eq_none_iff.mpr fun lead hmem => ?_
    have hspace : ∀ lead ∈ boxLeads, ' ' ∈ lead := by decide
    rw [hlead lead (hspace lead hmem)]
    rfl
  rw [ofChars, fileError?_eq_none_of_notMem hc, herror, hwarning, hbox]
  rfl

theorem errorPlace?_place {number : List Char} (hn : IsNumeral number) (context : List Char) :
    errorPlace? ('l' :: '.' :: (number ++ ' ' :: context)) = some number := by
  obtain ⟨htake, -⟩ := hn.takeWhile_append_cons (c := ' ') (r := context) (by decide)
  have hlead : dropLead? ['l', '.'] ('l' :: '.' :: (number ++ ' ' :: context)) =
      some (number ++ ' ' :: context) := rfl
  rw [errorPlace?, hlead]
  simp only [Option.bind_eq_bind, Option.bind_some, htake, guard_of hn.ne_nil]
  rfl

/-! ### Warnings -/

/-- Who warns: LaTeX itself, or a package or a class. -/
inductive WarningSource where
  | latex
  | package (name : List Char)
  | documentClass (name : List Char)
  deriving DecidableEq, Repr

namespace WarningSource

/-- How a warning starts. -/
def lead : WarningSource → List Char
  | .latex => "LaTeX".toList
  | .package name => "Package ".toList ++ name
  | .documentClass name => "Class ".toList ++ name

/-- The name of a package or a class is a run of word characters and hyphens. -/
def WellFormed : WarningSource → Prop
  | .latex => True
  | .package name | .documentClass name => name ≠ [] ∧ ∀ c ∈ name, isNameChar c = true

instance decidableWellFormed : (source : WarningSource) → Decidable source.WellFormed
  | .latex => inferInstanceAs (Decidable True)
  | .package name | .documentClass name =>
    inferInstanceAs (Decidable (name ≠ [] ∧ ∀ c ∈ name, isNameChar c = true))

variable {source : WarningSource}

private theorem WellFormed.notMem_lead (h : source.WellFormed) {c : Char}
    (hc : isNameChar c = false) (hw : c ∉ "LaTeX Package Class ".toList) : c ∉ source.lead := by
  have hfixed : ∀ s : List Char, s ⊆ "LaTeX Package Class ".toList → c ∉ s :=
    fun s hs hm => hw (hs hm)
  have hname : ∀ name : List Char, (∀ d ∈ name, isNameChar d = true) → c ∉ name := by
    intro name hn hm
    rw [hn c hm] at hc
    cases hc
  cases source with
  | latex => exact hfixed "LaTeX".toList (by decide)
  | package name | documentClass name =>
    obtain ⟨-, hn⟩ := h
    exact List.not_mem_append (hfixed _ (by decide)) (hname name hn)

private theorem WellFormed.dropSource?_append (h : source.WellFormed) (rest : List Char) :
    dropSource? (source.lead ++ ' ' :: rest) = some (' ' :: rest) := by
  cases source with
  | latex => rfl
  | package name | documentClass name =>
    obtain ⟨hne, hn⟩ := h
    obtain ⟨htake, hdrop⟩ := takeWhile_append_cons (c := ' ') (r := rest) hn (by decide)
    change (do
      guard ((name ++ ' ' :: rest).takeWhile isNameChar ≠ [])
      return (name ++ ' ' :: rest).dropWhile isNameChar) = some (' ' :: rest)
    rw [htake, hdrop, guard_of hne]
    rfl

/-- A warning is no error that names its file: in front of its first colon is no dot. -/
private theorem WellFormed.fileError?_append (h : source.WellFormed) (message : List Char) :
    fileError? (source.lead ++ (" Warning: ".toList ++ message)) = none := by
  have hcolon : ':' ∉ source.lead ++ " Warning".toList := by
    rw [List.mem_append, not_or]
    exact ⟨h.notMem_lead (by decide) (by decide), by decide⟩
  have hdot : '.' ∉ source.lead ++ " Warning".toList := by
    rw [List.mem_append, not_or]
    exact ⟨h.notMem_lead (by decide) (by decide), by decide⟩
  have htext : source.lead ++ (" Warning: ".toList ++ message) =
      (source.lead ++ " Warning".toList) ++ ':' :: (' ' :: message) := by simp
  refine fileError?_eq_none fun file rest hc => ?_
  rw [htext, cutFirst?_append hcolon] at hc
  obtain ⟨rfl, -⟩ := Prod.mk.inj (Option.some.inj hc)
  rw [isFileName, cutLast?_eq_none_iff.mpr hdot]

end WarningSource

/-- `LaTeX Warning: message` is a warning, and so is one of a package or a class. -/
theorem ofChars_warning {source : WarningSource} (h : source.WellFormed) {message : List Char}
    (hm : message ≠ []) :
    ofChars (source.lead ++ (" Warning: ".toList ++ message)) = .warning message := by
  have herror : error? (source.lead ++ (" Warning: ".toList ++ message)) = none := by
    cases source <;> rfl
  have hwarning : warning? (source.lead ++ (" Warning: ".toList ++ message)) =
      some (.warning message) := by
    have hspace : " Warning: ".toList ++ message = ' ' :: ("Warning: ".toList ++ message) := rfl
    rw [warning?, hspace, h.dropSource?_append, ← hspace]
    simp only [Option.bind_eq_bind, Option.bind_some, dropLead?_append, guard_of hm]
    rfl
  rw [ofChars, h.fileError?_append, herror, hwarning]
  rfl

/-- The end of a warning names the input line. -/
theorem inputLine?_append {text number : List Char} (hne : number ≠ [])
    (hd : ∀ c ∈ number, isDigit c = true) (ht : ∀ c ∈ text.getLast?, isBlank c = false) :
    inputLine? (text ++ " on input line ".toList ++ number ++ ['.']) = some (text, number) := by
  have hdigits : ∀ c ∈ number.reverse, isDigit c = true :=
    fun c hc => hd c (List.mem_reverse.mp hc)
  obtain ⟨htake, hdrop⟩ := takeWhile_append_cons (c := ' ')
    (r := "on input line".toList.reverse ++ ' ' :: text.reverse) hdigits (by decide)
  -- the text is read from its end
  have hback : (text ++ " on input line ".toList ++ number ++ ['.']).reverse =
      '.' :: (number.reverse ++
        ' ' :: ("on input line".toList.reverse ++ ' ' :: text.reverse)) := by
    simp
  have hlead : dropLead? "on input line ".toList.reverse
      (' ' :: ("on input line".toList.reverse ++ ' ' :: text.reverse)) =
        some (' ' :: text.reverse) :=
    rfl
  have htext : (' ' :: text.reverse).dropWhile isBlank = text.reverse := by
    rw [List.dropWhile_cons_of_pos (by decide), dropWhile_eq_self_iff, List.head?_reverse]
    exact ht
  rw [inputLine?, hback]
  simp only [htake, hdrop, hlead, guard_of (List.reverse_ne_nil_iff.mpr hne),
    Option.bind_eq_bind]
  simp [htext]

/-! ### Bad boxes -/

/-- No place is named where no space stands. -/
private theorem cutBoxPlace?_append {before s : List Char} (h : ' ' ∉ before) :
    cutBoxPlace? (before ++ s) = (cutBoxPlace? s).map fun cut => (before ++ cut.1, cut.2) := by
  induction before with
  | nil => simp
  | cons c before ih =>
    rw [List.mem_cons, not_or] at h
    have hplace : boxPlace? (c :: (before ++ s)) = none := by
      simp [boxPlace?, dropLead?, h.1]
    rw [List.cons_append, cutBoxPlace?, hplace, ih h.2]
    simp [Function.comp_def]

private theorem boxPlace?_paragraph {number : List Char} (hn : IsNumeral number) (s : List Char) :
    boxPlace? (" in paragraph at lines ".toList ++ (number ++ '-' :: s)) = some number := by
  obtain ⟨htake, -⟩ := hn.takeWhile_append_cons (c := '-') (r := s) (by decide)
  generalize number ++ '-' :: s = rest at htake ⊢
  have hspace : dropLead? [' '] (" in paragraph at lines ".toList ++ rest) =
      some ("in paragraph at lines ".toList ++ rest) := rfl
  have hcontext : dropBoxContext ("in paragraph at lines ".toList ++ rest) =
      "at lines ".toList ++ rest := rfl
  have hline : dropLead? "at line".toList ("at lines ".toList ++ rest) =
      some ('s' :: ' ' :: rest) := rfl
  have hplural : (dropLead? ['s'] ('s' :: ' ' :: rest)).getD ('s' :: ' ' :: rest) =
      ' ' :: rest := rfl
  have hnumeral : dropLead? [' '] (' ' :: rest) = some rest := rfl
  rw [boxPlace?, hspace]
  simp only [Option.bind_eq_bind, Option.bind_some, hcontext, hline, hplural, hnumeral, htake,
    guard_of hn.ne_nil]
  rfl

/-- The first place in a report is behind the size of the box. -/
private theorem cutBoxPlace?_overfull {amount number : List Char} (h : ' ' ∉ amount)
    (hn : IsNumeral number) (s : List Char) :
    cutBoxPlace? ('(' :: amount ++ "pt too wide) in paragraph at lines ".toList ++
        (number ++ '-' :: s)) =
      some ('(' :: amount ++ "pt too wide)".toList, number) := by
  have hplace := boxPlace?_paragraph hn s
  generalize number ++ '-' :: s = rest at hplace ⊢
  have hwords : '(' :: amount ++ "pt too wide) in paragraph at lines ".toList ++ rest =
      ('(' :: amount ++ "pt".toList) ++ ' ' :: ("too".toList ++
        ' ' :: ("wide)".toList ++ (" in paragraph at lines ".toList ++ rest))) := by
    simp
  have hsize : ' ' ∉ '(' :: amount ++ "pt".toList := by simp [h]
  have hlast : cutBoxPlace? (" in paragraph at lines ".toList ++ rest) = some ([], number) := by
    rw [show " in paragraph at lines ".toList ++ rest =
      ' ' :: ("in paragraph at lines ".toList ++ rest) from rfl] at hplace ⊢
    rw [cutBoxPlace?, hplace]
  -- the two spaces in front of the place start none
  have htoo : boxPlace? (' ' :: ("too".toList ++
      ' ' :: ("wide)".toList ++ (" in paragraph at lines ".toList ++ rest)))) = none := rfl
  have hwide : boxPlace? (' ' :: ("wide)".toList ++ (" in paragraph at lines ".toList ++ rest))) =
      none := rfl
  rw [hwords, cutBoxPlace?_append hsize, cutBoxPlace?, htoo]
  simp only [cutBoxPlace?_append (by decide : ' ' ∉ "too".toList)]
  rw [cutBoxPlace?, hwide]
  simp only [cutBoxPlace?_append (by decide : ' ' ∉ "wide)".toList), hlast]
  simp

/-- The report of a line that is too wide, in a paragraph. -/
theorem ofChars_overfull {amount number last : List Char}
    (ha : ∀ c ∈ amount, isDigit c = true ∨ c = '.') (hn : IsNumeral number) (hl : ':' ∉ last) :
    ofChars ("Overfull \\hbox ".toList ++ ('(' :: amount ++
        "pt too wide) in paragraph at lines ".toList ++ (number ++ '-' :: '-' :: last))) =
      .badBox ("Overfull \\hbox ".toList ++ ('(' :: amount ++ "pt too wide)".toList)) number := by
  have hno : ∀ c : Char, isDigit c = false → c ≠ '.' → c ∉ amount := by
    intro c hc hd hm
    rcases ha c hm with h | h
    · rw [hc] at h
      cases h
    · exact hd h
  -- a space in the amount could start another place, and a colon the name of a file
  have hspace : ' ' ∉ amount := hno ' ' (by decide) (by decide)
  have hcolon : ':' ∉ amount := hno ':' (by decide) (by decide)
  have hnumber : ':' ∉ number := hn.notMem (by decide)
  have hcut := cutBoxPlace?_overfull hspace hn ('-' :: last)
  have hrest : ':' ∉ '(' :: amount ++ "pt too wide) in paragraph at lines ".toList ++
      (number ++ '-' :: '-' :: last) := by
    simp [hcolon, hnumber, hl]
  generalize '(' :: amount ++ "pt too wide) in paragraph at lines ".toList ++
    (number ++ '-' :: '-' :: last) = rest at hcut hrest ⊢
  have hf : fileError? ("Overfull \\hbox ".toList ++ rest) = none :=
    fileError?_eq_none_of_notMem (by simp [hrest])
  have herror : error? ("Overfull \\hbox ".toList ++ rest) = none := rfl
  have hwarning : warning? ("Overfull \\hbox ".toList ++ rest) = none := rfl
  have hbox : badBox? ("Overfull \\hbox ".toList ++ rest) = some (.badBox
      ("Overfull \\hbox ".toList ++ ('(' :: amount ++ "pt too wide)".toList)) number) := by
    rw [badBox?, boxLeads, List.findSome?_cons, dropLead?_append]
    simp only [Option.bind_eq_bind, Option.bind_some, hcut]
    rfl
  rw [ofChars, hf, herror, hwarning, hbox]
  rfl

end Galley.TexLine
