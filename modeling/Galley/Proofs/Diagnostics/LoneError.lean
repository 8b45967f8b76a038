import Galley.Diagnostics
import Galley.Proofs.Log.Report
import Galley.Proofs.Log.Spelling
import Galley.Proofs.Log.Tex
import Galley.Proofs.Path
import Galley.Proofs.Text.Ink
import Galley.Proofs.Text.Latin1
import Galley.Proofs.Text.Lines

/-!
# A log of one error

`LoneError` is a log of one line that ends in a line feed: an error in the document of the log, with
any bytes as its message. Its entry should have the whole message. It does just if what stands in
front of the first line break of the message is the message already, and the number of the line is
short enough to be read (`LoneError.load_iff`).

A log is read as Latin-1 and cut into lines at every line break there is in this encoding. In a
message in UTF-8 the byte of the next-line control is a part of many letters, so a letter can cut
the message.
-/

namespace Galley

open Text

/-! ### Ink of entries -/

namespace TexLog

/-- Cleaning a message takes at most a full stop off it. -/
private theorem ink_eq_cleanMessage (m : List Char) :
    ∃ stop, ink m = ink (cleanMessage m) ++ stop ∧ (stop = [] ∨ stop = ['.']) := by
  rw [← ink_trim m, cleanMessage]
  split
  · next r hr =>
    rw [← hr, List.reverse_reverse]
    exact ⟨[], by simp, .inl rfl⟩
  · next r _ hr =>
    rw [← List.reverse_reverse (trim m), hr, List.reverse_cons, ink_append]
    exact ⟨['.'], rfl, .inr rfl⟩
  · next hr _ =>
    rw [List.reverse_reverse]
    exact ⟨[], by simp, .inl rfl⟩

private theorem length_ink_cleanMessage_le (m : List Char) :
    (ink (cleanMessage m)).length ≤ (ink m).length ∧
      (ink m).length ≤ (ink (cleanMessage m)).length + 1 := by
  obtain ⟨stop, hm, rfl | rfl⟩ := ink_eq_cleanMessage m <;> simp [hm]

/-- The message of an error is shorter than the lines that report it. -/
private theorem Reports.length_ink_le {files : FileStack} {line : List Char}
    {behind : List (List Char)}
    {e : Entry} (h : Reports files behind (TexLine.ofChars line) e) (he : e.kind = .error) :
    (ink e.message.toList).length + 2 ≤ (ink line).length + (ink behind.flatten).length := by
  have hspell := TexLine.spells_ofChars line
  revert h hspell
  generalize TexLine.ofChars line = kind
  intro h hspell
  cases h with
  | @fileError file number message n hn =>
    have hle := (length_ink_cleanMessage_le message).1
    cases hspell
    rw [String.toList_ofList]
    simp only [ink_append, ink_cons (by decide : isBlank ':' = false),
      ink_cons_of_isBlank (by decide : isBlank ' ' = true), List.length_append, List.length_cons]
    omega
  | @error message number n hp hn =>
    have hle := (length_ink_cleanMessage_le message).1
    obtain ⟨place, hmem, hplace⟩ := List.exists_of_findSome?_eq_some hp
    obtain ⟨rest, rfl, -⟩ := TexLine.exists_of_errorPlace?_eq_some hplace
    obtain ⟨front, back, rfl⟩ := List.append_of_mem (List.mem_of_mem_take hmem)
    cases hspell
    rw [String.toList_ofList]
    simp only [List.flatten_append, List.flatten_cons, List.cons_append, ink_append,
      ink_cons (by decide : isBlank '!' = false), ink_cons (by decide : isBlank 'l' = false),
      ink_cons (by decide : isBlank '.' = false),
      ink_cons_of_isBlank (by decide : isBlank ' ' = true), List.length_append, List.length_cons]
    omega
  | warning => cases he
  | badBox => cases he

end TexLog

/-! ### The log -/

/-- An error in the document of a log, with any message on one line. -/
structure LoneError where
  /-- The directory of the document and its log. -/
  dir : Path
  /-- The name of both files without the suffix. -/
  stem : String
  stem_ne : stem ≠ ""
  isAlpha_of_mem : ∀ c ∈ stem.toList, c.isAlpha = true
  line : Nat
  message : List UInt8
  message_ne : message ≠ []
  no_feed : 10 ∉ message
  no_return : 13 ∉ message

namespace LoneError

variable (w : LoneError)

/-- The file with the stem of the document and another ending. -/
def file (ending : String) : Path := w.dir.child (w.stem ++ ending)

/-- What TeX writes in front of the message. -/
def opening : String := "./" ++ w.stem ++ ".tex:" ++ toString w.line ++ ": "

/-- The bytes of the log. -/
def content : List UInt8 := utf8Encode w.opening ++ w.message ++ [10]

/-- The message as it is decoded. -/
def text : List Char := latin1 w.message

/-- What stands in front of the first line break of the message. -/
def firstLine : List Char := w.text.takeWhile fun c => !isLineBreak c

/-- The entry of the error in its document when its message is `m`. -/
def entryWith (m : List Char) : Entry :=
  ⟨.error, some (w.file ".tex").normalize, w.line, String.ofList (TexLog.cleanMessage m)⟩

/-- The entry of the whole error. -/
def entry : Entry := w.entryWith w.text

variable {w : LoneError}

private theorem range_of_mem_stem {c : Char} (h : c ∈ w.stem.toList) : 65 ≤ c.toNat ∧
    c.toNat < 123 := by
  have hupper : c.isUpper = true → 65 ≤ c.toNat ∧ c.toNat ≤ 90 := fun hc => of_decide_eq_true hc
  have hlower : c.isLower = true → 97 ≤ c.toNat ∧ c.toNat ≤ 122 := by
    intro hc
    obtain ⟨ha, hz⟩ := Bool.and_eq_true_iff.mp hc
    exact ⟨of_decide_eq_true ha, of_decide_eq_true hz⟩
  obtain hc | hc := Bool.or_eq_true_iff.mp (w.isAlpha_of_mem c h)
  · have hr := hupper hc
    omega
  · have hr := hlower hc
    omega

/-- The name of the document in the log. -/
def spelling (w : LoneError) : List Char := '.' :: '/' :: (w.stem.toList ++ ".tex".toList)

private theorem toList_opening :
    w.opening.toList = w.spelling ++ ':' :: (decimal w.line ++ [':', ' ']) := by
  simp [opening, spelling, decimal]

private theorem notMem_spelling {c : Char} (h : c.isAlpha = false) (hd : c ∉ ['.', '/']) :
    c ∉ w.spelling := by
  have htex : ∀ d ∈ ".tex".toList, d.isAlpha = false → d ∈ ['.', '/'] := by decide
  have hdots : c ≠ '.' ∧ c ≠ '/' := by simpa using hd
  rw [spelling, List.mem_cons, List.mem_cons, List.mem_append, not_or, not_or, not_or]
  exact ⟨hdots.1, hdots.2, Path.notMem_of_forall w.isAlpha_of_mem h, fun hm => hd (htex c hm h)⟩

private theorem isFileName_spelling : TexLine.isFileName w.spelling = true := by
  have ho := notMem_spelling (w := w) (c := '(') (by decide) (by decide)
  have hc := notMem_spelling (w := w) (c := ')') (by decide) (by decide)
  exact TexLine.isFileName_append (c := '.') (q := '/' :: w.stem.toList)
    (by decide : "tex".toList ≠ []) (by decide) ho hc

/-- The name is read from the directory of the log. -/
private theorem resolveIn_spelling :
    w.dir.resolveIn (String.ofList w.spelling) = (w.file ".tex").normalize := by
  have hname : w.stem ++ ".tex" = String.ofList (w.stem.toList ++ ".tex".toList) := by
    rw [String.ofList_append, String.ofList_toList, String.ofList_toList]
  rw [Path.resolveIn, spelling, Path.child_dotSlash, file, hname]
  rw [List.mem_append, not_or]
  exact ⟨Path.notMem_of_forall w.isAlpha_of_mem (by decide), by decide⟩

/-! ### How it is read -/

/-- All characters in front of the message are printable ones of ASCII. -/
private theorem range_of_mem_opening {c : Char} (h : c ∈ w.opening.toList) :
    32 ≤ c.toNat ∧ c.toNat < 127 := by
  rw [toList_opening] at h
  simp only [spelling, List.cons_append, List.mem_cons, List.mem_append, List.not_mem_nil,
    or_false] at h
  obtain rfl | rfl | (h | h) | rfl | h | rfl | rfl := h
  · decide
  · decide
  · have hr := range_of_mem_stem h
    omega
  · revert c
    decide
  · decide
  · have hr := toNat_of_isDigit (ascii_of_mem_decimal h)
    omega
  · decide
  · decide

private theorem isLine_opening : IsLine w.opening.toList :=
  fun _ hc => isLineBreak_of_printable (range_of_mem_opening hc)

private theorem toNat_of_mem_text {c : Char} (h : c ∈ w.text) : c.toNat ≠ 10 ∧ c.toNat ≠ 13 := by
  obtain ⟨b, hb, rfl⟩ := List.mem_map.mp h
  have hbyte : ∀ n : UInt8, b.toNat = n.toNat → n ∈ w.message := by
    intro n hn
    rwa [← UInt8.toNat_inj.mp hn]
  rw [toNat_ofNat_byte]
  exact ⟨fun h10 => w.no_feed (hbyte 10 h10), fun h13 => w.no_return (hbyte 13 h13)⟩

/-- The text of the log: the message is decoded byte by byte. -/
private theorem readLogText_eq {t : Tree} {here : Path}
    (h : t.read here (w.file ".log") = .ok w.content) :
    readLogText t here (w.file ".log") = .ok (w.opening.toList ++ (w.text ++ ['\n'])) := by
  have hopening : latin1 (utf8Encode w.opening) = w.opening.toList := by
    rw [latin1_utf8Encode, misread_eq_self fun c hc => ?_]
    have hr := range_of_mem_opening hc
    omega
  have hreturn : '\r' ∉ w.opening.toList ++ w.text := by
    rw [List.mem_append, not_or]
    exact ⟨fun hc => absurd (isLine_opening '\r' hc) (by decide),
      fun hc => (toNat_of_mem_text hc).2 rfl⟩
  have htext : latin1 w.content = (w.opening.toList ++ w.text) ++ ['\n'] := by
    rw [← hopening, text, content, latin1, latin1, latin1, List.map_append, List.map_append]
    rfl
  rw [readLogText, h]
  simp only [mapError_ok, bind, Except.bind, pure, Except.pure, htext, unifyBreaks_append hreturn]
  rw [List.append_assoc]
  rfl

private theorem isLine_firstLine : IsLine w.firstLine := by
  intro c hc
  simpa using List.mem_takeWhile_imp (p := fun c => !isLineBreak c) hc

/-- The message is one line, or its first line ends at a line break in it. -/
private theorem text_cases :
    w.firstLine = w.text ∨
      ∃ c rest, w.text = w.firstLine ++ c :: rest ∧ isLineBreak c = true := by
  have hsplit : w.firstLine ++ w.text.dropWhile (fun c => !isLineBreak c) = w.text :=
    List.takeWhile_append_dropWhile
  cases hd : w.text.dropWhile fun c => !isLineBreak c with
  | nil =>
    rw [hd, List.append_nil] at hsplit
    exact .inl hsplit
  | cons c rest =>
    have hhead := List.head?_dropWhile_not (fun c => !isLineBreak c) w.text
    rw [hd] at hsplit hhead
    exact .inr ⟨c, rest, hsplit.symm, by simpa using hhead⟩

private theorem text_ne_nil : w.text ≠ [] := fun h => w.message_ne (List.map_eq_nil_iff.mp h)

/-- An error with a message is reported just if its number can be read. -/
private theorem entriesOfLines_opening_iff {m : List Char} (hm : m ≠ []) {files : FileStack}
    (hf : files.baseDir = w.dir) {rest : List (List Char)} {entries : List Entry} :
    TexLog.entriesOfLines files ((w.opening.toList ++ m) :: rest) = .ok entries ↔
      w.line < Nat.pow 10 digitLimit ∧
        ∃ more, TexLog.entriesOfLines files rest = .ok more ∧ w.entryWith m :: more = entries := by
  have hcolon : ':' ∉ w.spelling := notMem_spelling (by decide) (by decide)
  have hkind : TexLine.ofChars (w.opening.toList ++ m) =
      .fileError w.spelling (decimal w.line) m := by
    rw [toList_opening, ← TexLine.ofChars_of_isFileName isFileName_spelling hcolon
      (decimal_ne_nil w.line) (fun _ => isDigit_of_mem_decimal) hm]
    simp
  by_cases hline : w.line < Nat.pow 10 digitLimit
  · have hentry : TexLog.entryOfLine files (.fileError w.spelling (decimal w.line) m) rest =
        .ok (some (w.entryWith m)) := by
      rw [TexLog.entryOfLine, readDigits_decimal hline, hf, resolveIn_spelling]
      rfl
    rw [TexLog.entriesOfLines_report hkind (by simp) hentry, iff_true_intro hline, true_and]
    cases TexLog.entriesOfLines files rest <;> simp [Functor.map, Except.map]
  · obtain ⟨e, he⟩ := exists_readDigits_decimal_eq_error hline
    rw [TexLog.entriesOfLines, hkind, TexLog.entryOfLine, he]
    exact iff_of_false (by simp [bind, Except.bind]) fun h => hline h.1

/-- Without a message there is no error. -/
private theorem ofChars_opening : TexLine.ofChars w.opening.toList = .plain := by
  have hcolon : ':' ∉ w.spelling := notMem_spelling (by decide) (by decide)
  have hfile : TexLine.fileError? w.opening.toList = none := by
    obtain ⟨htake, hdrop⟩ := takeWhile_append_cons (c := ':') (r := [' '])
      (fun _ hc => isDigit_of_mem_decimal (n := w.line) hc) (by decide)
    rw [toList_opening, TexLine.fileError?, cutFirst?_append hcolon]
    simp only [Option.bind_eq_bind, Option.bind_some, TexLine.guard_of isFileName_spelling, htake,
      hdrop, TexLine.guard_of (decimal_ne_nil w.line)]
    rfl
  rw [toList_opening, spelling, List.cons_append] at hfile ⊢
  exact TexLine.ofChars_plain hfile (by decide)

/-- What is left behind a whole message reports nothing. -/
private theorem ofChars_of_mem_rest {c : Char} {rest : List Char}
    (htext : w.text = w.firstLine ++ c :: rest) (hc : isLineBreak c = true)
    (hwhole : TexLog.cleanMessage w.firstLine = TexLog.cleanMessage w.text) :
    ∀ l ∈ lines (rest ++ ['\n']), TexLine.ofChars l = .plain := by
  obtain ⟨stop, hstop, -⟩ := TexLog.ink_eq_cleanMessage w.firstLine
  obtain ⟨stop', hstop', hdot⟩ := TexLog.ink_eq_cleanMessage w.text
  -- the text has no more ink than its first line but for a full stop
  have hink : stop ++ ink rest = stop' := by
    rw [htext, ink_append, ink_cons_of_isBlank (isBlank_of_isLineBreak hc), hstop, ← htext,
      ← hwhole, List.append_assoc] at hstop'
    exact List.append_cancel_left hstop'
  have hmem : ∀ d ∈ ink rest, d = '.' := by
    intro d hd
    have hd' : d ∈ stop' := hink ▸ List.mem_append_right stop hd
    obtain rfl | rfl := hdot
    · cases hd'
    · exact List.mem_singleton.mp hd'
  intro l hl
  have hdots : ∀ d ∈ l, isBlank d = true ∨ d = '.' := by
    intro d hd
    cases hb : isBlank d with
    | true => exact .inl rfl
    | false =>
      refine .inr (hmem d ?_)
      have hd' : d ∈ ink (lines (rest ++ ['\n'])).flatten :=
        mem_ink_iff.mpr ⟨List.mem_flatten.mpr ⟨l, hl, hd⟩, hb⟩
      have hfeed : ink ['\n'] = [] := rfl
      rwa [ink_flatten_lines, ink_append, hfeed, List.append_nil] at hd'
  cases l with
  | nil => decide
  | cons a l =>
    have hno : ∀ d ∈ ['!', 'L', 'P', 'C', 'O', 'U', ':'], isBlank d = false ∧ d ≠ '.' := by decide
    have hnot : ∀ d ∈ ['!', 'L', 'P', 'C', 'O', 'U', ':'], d ∉ a :: l := by
      intro d hd hmem
      obtain hb | rfl := hdots d hmem
      · rw [(hno d hd).1] at hb
        cases hb
      · exact (hno '.' hd).2 rfl
    refine TexLine.ofChars_plain
      (TexLine.fileError?_eq_none_of_notMem (hnot ':' (by simp))) fun ha => ?_
    refine hnot a ?_ List.mem_cons_self
    simp only [List.mem_cons, List.not_mem_nil, or_false] at ha ⊢
    tauto

/-- The lines of the log: the first line of the message, and the rest if there is more. -/
private theorem lines_content :
    w.firstLine = w.text ∧
        lines (w.opening.toList ++ (w.text ++ ['\n'])) = [w.opening.toList ++ w.text] ∨
      ∃ c rest, w.text = w.firstLine ++ c :: rest ∧ isLineBreak c = true ∧
        lines (w.opening.toList ++ (w.text ++ ['\n'])) =
          (w.opening.toList ++ w.firstLine) :: lines (rest ++ ['\n']) := by
  have hline : IsLine (w.opening.toList ++ w.firstLine) :=
    isLine_append.mpr ⟨isLine_opening, isLine_firstLine⟩
  obtain hw | ⟨c, rest, htext, hc⟩ := w.text_cases
  · rw [hw] at hline
    exact .inl ⟨hw, by rw [← List.append_assoc, lines_append_feed hline]; rfl⟩
  · have hreturn : c ≠ '\r' := by
      rintro rfl
      exact (toNat_of_mem_text (w := w) (c := '\r') (htext ▸ by simp)).2 rfl
    refine .inr ⟨c, rest, htext, hc, ?_⟩
    rw [← lines_append_break hline hc hreturn, htext]
    simp

/-- An error whose message starts with a line break is not reported whole: what is reported of the
rest of the message lacks two characters of it. -/
private theorem firstLine_ne_nil {files : FileStack}
    (h : TexLog.entriesOfLines files (lines (w.opening.toList ++ (w.text ++ ['\n']))) =
      .ok [w.entry]) : w.firstLine ≠ [] := by
  intro hnil
  obtain ⟨hw, -⟩ | ⟨c, rest, htext, hc, hlines⟩ := w.lines_content
  · exact w.text_ne_nil (hw ▸ hnil)
  · rw [hlines, hnil, List.append_nil, TexLog.entriesOfLines_plain ofChars_opening] at h
    obtain ⟨_, front, line, behind, hrest, hreports⟩ :=
      TexLog.exists_reports_of_mem h List.mem_cons_self
    have hink : ink w.text = ink front.flatten ++ (ink line ++ ink behind.flatten) := by
      have hfeed : ink ['\n'] = [] := rfl
      rw [← ink_append, ← ink_append, ← List.flatten_cons, ← List.flatten_append, ← hrest,
        ink_flatten_lines, ink_append, hfeed, List.append_nil, htext, hnil, List.nil_append,
        ink_cons_of_isBlank (isBlank_of_isLineBreak hc)]
    have hlen := congrArg List.length hink
    have hle := hreports.length_ink_le rfl
    have hclean := (TexLog.length_ink_cleanMessage_le w.text).2
    rw [entry, entryWith, String.toList_ofList] at hle
    simp only [List.length_append] at hlen
    omega

/-- The entries of the log are those of its lines, read in the directory of the document. -/
private theorem exists_load_iff {t : Tree} {here : Path}
    (h : t.read here (w.file ".log") = .ok w.content) :
    ∃ files : FileStack, files.baseDir = w.dir ∧ ∀ entries,
      TexLog.load t here (w.file ".log") = .ok entries ↔
        TexLog.entriesOfLines files (lines (w.opening.toList ++ (w.text ++ ['\n']))) =
          .ok entries := by
  have hparent : (w.file ".log").parent = w.dir :=
    Path.parent_child
      (.append_of_forall w.isAlpha_of_mem (by decide) ⟨by decide, by decide⟩)
  refine ⟨{ baseDir := w.dir, mainFile := w.dir.resolveIn ((w.file ".log").stem ++ ".tex") },
    rfl, fun entries => ?_⟩
  rw [TexLog.load, readLogText_eq h, hparent]
  simp only [bind, Except.bind, TexLog.entries]
  cases TexLog.entriesOfLines _ (lines (w.opening.toList ++ (w.text ++ ['\n']))) <;>
    simp [Except.mapError]

/-- What the first line of a message makes an error say. -/
private theorem entry_eq_iff : w.entryWith w.firstLine = w.entry ↔
    TexLog.cleanMessage w.firstLine = TexLog.cleanMessage w.text := by
  rw [entry, entryWith, entryWith, Entry.mk.injEq]
  simp [String.ofList_inj]

/-- **An error is reported whole** just if nothing is left of its message behind the first line
break, and its number is short enough to be read. -/
theorem load_iff {t : Tree} {here : Path} (h : t.read here (w.file ".log") = .ok w.content) :
    TexLog.load t here (w.file ".log") = .ok [w.entry] ↔
      w.line < Nat.pow 10 digitLimit ∧ w.firstLine ≠ [] ∧
        TexLog.cleanMessage w.firstLine = TexLog.cleanMessage w.text := by
  obtain ⟨files, hf, hload⟩ := exists_load_iff h
  obtain ⟨rest, hlines, hplain⟩ : ∃ rest, lines (w.opening.toList ++ (w.text ++ ['\n'])) =
      (w.opening.toList ++ w.firstLine) :: rest ∧
        (TexLog.cleanMessage w.firstLine = TexLog.cleanMessage w.text →
          ∀ l ∈ rest, TexLine.ofChars l = .plain) := by
    obtain ⟨hw, hlines⟩ | ⟨c, rest, htext, hc, hlines⟩ := w.lines_content
    · exact ⟨[], hw ▸ hlines, by simp⟩
    · exact ⟨_, hlines, ofChars_of_mem_rest htext hc⟩
  rw [hload, ← entry_eq_iff]
  constructor
  · intro hentries
    have hne := firstLine_ne_nil hentries
    rw [hlines, entriesOfLines_opening_iff hne hf] at hentries
    obtain ⟨hline, more, -, hmore⟩ := hentries
    exact ⟨hline, hne, (List.cons.inj hmore).1⟩
  · rintro ⟨hline, hne, hwhole⟩
    have hnone : TexLog.entriesOfLines files (rest ++ []) = .ok [] :=
      TexLog.entriesOfLines_append (hplain (entry_eq_iff.mp hwhole)) []
    rw [List.append_nil] at hnone
    rw [hlines, entriesOfLines_opening_iff hne hf]
    exact ⟨hline, [], hnone, by rw [hwhole]⟩

/-! ### Two messages -/

/-- An error in the fifth line of a document. -/
def saying (message : String) (h : utf8Encode message ≠ [] ∧
    10 ∉ utf8Encode message ∧ 13 ∉ utf8Encode message) : LoneError where
  dir := Path.ofString "/d"
  stem := "r"
  stem_ne := by decide
  isAlpha_of_mem := by decide
  line := 5
  message := utf8Encode message
  message_ne := h.1
  no_feed := h.2.1
  no_return := h.2.2

/-- The tree that holds the log of an error and nothing else. -/
def logTree (w : LoneError) : Tree :=
  ((∅ : Tree).provide w.dir (w.file ".log") (some w.content)).toOption.getD ∅

/-- A message that is ASCII. -/
def plainMessage : LoneError := saying "Undefined control sequence." (by decide +kernel)

/-- An error with a plain message is reported whole. -/
theorem load_plainMessage :
    plainMessage.logTree.read (Path.ofString "/") (plainMessage.file ".log") =
        .ok plainMessage.content ∧
      TexLog.load plainMessage.logTree (Path.ofString "/") (plainMessage.file ".log") =
        .ok [⟨.error, some (Path.ofString "/d/r.tex"), 5, "Undefined control sequence"⟩] := by
  have hread : plainMessage.logTree.read (Path.ofString "/") (plainMessage.file ".log") =
      .ok plainMessage.content := by decide +kernel
  refine ⟨hread, ((load_iff hread).mpr ⟨lt_pow_of_le (by decide), by decide +kernel,
    by decide +kernel⟩).trans (by decide +kernel)⟩

/-- A message with a letter that the byte of the next-line control is a part of. -/
def accentedMessage : LoneError := saying "Undefined control sequence \\Åx." (by decide +kernel)

/-- **An error with an accented message is cut** in the middle of the letter. -/
theorem load_accentedMessage :
    accentedMessage.logTree.read (Path.ofString "/") (accentedMessage.file ".log") =
        .ok accentedMessage.content ∧
      TexLog.load accentedMessage.logTree (Path.ofString "/") (accentedMessage.file ".log") =
        .ok [⟨.error, some (Path.ofString "/d/r.tex"), 5, "Undefined control sequence \\Ã"⟩] ∧
      TexLog.load accentedMessage.logTree (Path.ofString "/") (accentedMessage.file ".log") ≠
        .ok [accentedMessage.entry] := by
  decide +kernel

end LoneError

end Galley
