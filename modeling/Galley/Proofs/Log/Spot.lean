import Galley.Proofs.Log.Continuation
import Galley.Proofs.Log.Report
import Galley.Proofs.Log.Spelling
import Galley.Proofs.Text.Lines
import Galley.Proofs.Text.Numeral

/-!
# Where entries take their lines from

An entry takes its line from a number in the log, which stands at a `Spot` of it. Entries of
different kinds never have the same spot, because what stands in front of the number tells the kind
(`IsFront`).
-/

namespace Galley.TexLog

open Text

/-- A place in a log: one of its lines, counted from zero, and a column of this line. -/
@[ext]
structure Spot where
  line : Nat
  column : Nat
  deriving DecidableEq, Repr

namespace Spot

/-- What stands in front of a spot on its line. -/
def front (ls : List (List Char)) (s : Spot) : List Char := (ls.getD s.line []).take s.column

/-- The digits at a spot. -/
def numeral (ls : List (List Char)) (s : Spot) : List Char :=
  ((ls.getD s.line []).drop s.column).takeWhile isDigit

end Spot

/-- Whether an entry takes its line from the number at a spot, which is a whole number and short
enough to be read. -/
structure TakesLine (ls : List (List Char)) (e : Entry) (s : Spot) : Prop where
  isNumeral : IsNumeral (s.numeral ls)
  not_isDigit_front : ∀ c ∈ (s.front ls).getLast?, isDigit c = false
  line_eq : e.line = digitsValue (s.numeral ls)

/-- The column of the number that a line ends with, blanks and a full stop behind it aside. -/
def endColumn (line : List Char) : Nat :=
  let r := match line.reverse.dropWhile isBlank with
    | '.' :: r => r
    | r => r
  (r.dropWhile isDigit).length

/-- Whether a line shows the place of an error. -/
def isPlace (line : List Char) : Bool := (TexLine.errorPlace? line).isSome

/-- Where the number stands that a line reports, if it reports one, given the index of the line and
the lines behind it. -/
def spotOf? (i : Nat) (line : List Char) (behind : List (List Char)) : TexLine → Option Spot
  | .fileError file _ _ => some ⟨i, file.length + 1⟩
  | .error _ => ((behind.take placeLookahead).findIdx? isPlace).map fun k => ⟨i + 1 + k, 2⟩
  | .warning message =>
    if (TexLine.inputLine? (continued continuationLimit message behind)).isSome then
      let k := reach continuationLimit (line :: behind)
      some ⟨i + k, endColumn ((line :: behind).getD k [])⟩
    else none
  | .badBox message _ =>
    some ⟨i, message.length + ((line.drop message.length).takeWhile fun c => !isDigit c).length⟩
  | .givenUp => none
  | .plain => none

/-- Where the number stands that a line of a log reports. -/
def spot? (ls : List (List Char)) (i : Nat) : Option Spot :=
  match ls.drop i with
  | [] => none
  | line :: behind => spotOf? i line behind (TexLine.ofChars line)

/-- The number that a line reports, as it is written. -/
def number? (kind : TexLine) (behind : List (List Char)) : Option (List Char) :=
  match kind with
  | .fileError _ number _ => some number
  | .error _ => (behind.take placeLookahead).findSome? TexLine.errorPlace?
  | .warning message =>
    (TexLine.inputLine? (continued continuationLimit message behind)).map Prod.snd
  | .badBox _ number => some number
  | .givenUp => none
  | .plain => none

/-- A line that reports no number makes no entry. Otherwise the number has to be read, and is the
line of the entry. -/
theorem exists_entryOfLine_eq (files : FileStack) (kind : TexLine) (behind : List (List Char)) :
    ∃ f : Nat → Entry, (∀ n : Nat, (f n).line = n) ∧ entryOfLine files kind behind =
      match number? kind behind with
      | none => .ok none
      | some number => (readDigits number).map fun n => some (f n) := by
  have hmap : ∀ (number : List Char) (f : Nat → Entry), (do
      let n ← readDigits number
      return some (f n) : Except NumeralError (Option Entry)) =
        (readDigits number).map fun n => some (f n) := by
    intro number f
    cases readDigits number <;> rfl
  cases kind with
  | fileError file number message => exact ⟨_, fun n => rfl, hmap number _⟩
  | error message =>
    rw [entryOfLine, number?]
    cases (behind.take placeLookahead).findSome? TexLine.errorPlace? with
    | none => exact ⟨fun n => ⟨.error, none, n, ""⟩, fun n => rfl, rfl⟩
    | some number => exact ⟨_, fun n => rfl, hmap number _⟩
  | warning message =>
    rw [entryOfLine, number?]
    cases TexLine.inputLine? (continued continuationLimit message behind) with
    | none => exact ⟨fun n => ⟨.warning, none, n, ""⟩, fun n => rfl, rfl⟩
    | some cut => exact ⟨_, fun n => rfl, hmap cut.2 _⟩
  | badBox message number => exact ⟨_, fun n => rfl, hmap number _⟩
  | givenUp | plain => exact ⟨fun n => ⟨.error, none, n, ""⟩, fun n => rfl, rfl⟩

/-- What stands in front of the number that a line of a kind reports. The words in front of the
number of a warning may be cut off by the start of a line. -/
inductive IsFront : TexLine → List Char → Prop
  | fileError {file number message : List Char} :
      IsFront (.fileError file number message) (file ++ [':'])
  | error {message : List Char} : IsFront (.error message) ['l', '.']
  | warning {message blanks words : List Char} (hb : ∀ c ∈ blanks, isBlank c = true)
      (hw : words <:+ "on input line ".toList ∨ "on input line ".toList <:+ words) :
      IsFront (.warning message) (blanks ++ words)
  | badBox {message number front : List Char}
      (h : "at line ".toList <:+ front ∨ "at lines ".toList <:+ front) :
      IsFront (.badBox message number) front

/-- Whether the number that a line of a kind reports stands at a spot. -/
structure IsAt (ls : List (List Char)) (kind : TexLine) (number : List Char) (s : Spot) : Prop where
  numeral_eq : s.numeral ls = number
  ne_nil : number ≠ []
  isFront : IsFront kind (s.front ls)

variable {ls : List (List Char)} {i : Nat} {line : List Char} {behind : List (List Char)}

/-! ### Lines and columns -/

theorem getElem?_of_drop_eq_cons (h : ls.drop i = line :: behind) :
    ls[i]? = some line ∧ ∀ k, behind[k]? = ls[i + 1 + k]? := by
  have hget : ∀ k, (line :: behind)[k]? = ls[i + k]? := fun k => by rw [← h, List.getElem?_drop]
  refine ⟨(hget 0).symm, fun k => ?_⟩
  rw [Nat.add_assoc, Nat.add_comm 1 k, ← hget]
  rfl

theorem getD_of_drop_eq_cons (h : ls.drop i = line :: behind) (k : Nat) :
    (line :: behind).getD k [] = ls.getD (i + k) [] := by
  rw [← h, List.getD_eq_getElem?_getD, List.getD_eq_getElem?_getD, List.getElem?_drop]

/-- A number stands behind the characters in front of it. -/
private theorem isAt_of_getElem? {kind : TexLine} {k : Nat} {front rest number : List Char}
    (h : ls[k]? = some (front ++ rest)) (hn : rest.takeWhile isDigit = number) (hne : number ≠ [])
    (hf : IsFront kind front) : IsAt ls kind number ⟨k, front.length⟩ := by
  have hline : ls.getD k [] = front ++ rest := by rw [List.getD_eq_getElem?_getD, h]; rfl
  refine ⟨?_, hne, ?_⟩
  · rw [Spot.numeral, hline, List.drop_left, hn]
  · rw [Spot.front, hline, List.take_left]
    exact hf

/-- Where the number is that a line ends with. -/
private theorem endColumn_eq {front number stop blanks : List Char}
    (hf : ∀ c ∈ front.getLast?, isDigit c = false) (hne : number ≠ [])
    (hd : ∀ c ∈ number, isDigit c = true) (hstop : stop = [] ∨ stop = ['.'])
    (hb : ∀ c ∈ blanks, isBlank c = true) :
    endColumn (front ++ (number ++ (stop ++ blanks))) = front.length := by
  obtain ⟨d, digits, hdigits⟩ := List.exists_cons_of_ne_nil (List.reverse_ne_nil_iff.mpr hne)
  have hdigit : ∀ c ∈ d :: digits, isDigit c = true := fun c hc =>
    hd c (List.mem_reverse.mp (hdigits ▸ hc))
  have hfront : (d :: digits ++ front.reverse).dropWhile isDigit = front.reverse := by
    rw [List.dropWhile_append_of_pos hdigit, dropWhile_eq_self_iff, List.head?_reverse]
    exact hf
  have hback : ∀ c ∈ blanks.reverse, isBlank c = true := fun c hc => hb c (List.mem_reverse.mp hc)
  have hblank : isBlank d = false := isBlank_of_isDigit (hdigit d List.mem_cons_self)
  simp only [endColumn, List.reverse_append, List.append_assoc,
    List.dropWhile_append_of_pos hback, hdigits]
  obtain rfl | rfl := hstop
  · have hd' : d ≠ '.' := by
      rintro rfl
      exact absurd (hdigit '.' List.mem_cons_self) (by decide)
    rw [List.reverse_nil, List.nil_append, List.cons_append,
      List.dropWhile_cons_of_neg (by simp [hblank])]
    split
    · next hr => exact absurd (List.cons.inj hr).1 hd'
    · rw [← List.cons_append, hfront, List.length_reverse]
  · rw [List.reverse_singleton, List.singleton_append,
      List.dropWhile_cons_of_neg (by decide)]
    simp only [hfront, List.length_reverse]

/-! ### The numbers at the spots -/

/-- In front of the number of a warning is a blank, if there is anything. -/
theorem IsFront.isBlank_getLast? {message front : List Char}
    (h : IsFront (.warning message) front) : ∀ c ∈ front.getLast?, isBlank c = true := by
  cases h with
  | @warning _ blanks words hb hw =>
    have hwords : ∀ c ∈ words.getLast?, c = ' ' := by
      intro c hc
      obtain ⟨r, hr⟩ | ⟨r, hr⟩ := hw
      · have hlast := congrArg List.getLast? hr
        rw [List.getLast?_append, Option.mem_def.mp hc, Option.some_or] at hlast
        exact Option.some.inj (hlast.trans rfl)
      · rw [← hr, List.getLast?_append] at hc
        exact (Option.some.inj hc).symm
    intro c hc
    rw [List.getLast?_append, Option.mem_def, Option.or_eq_some_iff] at hc
    obtain hc | ⟨-, hc⟩ := hc
    · rw [hwords c hc]
      decide
    · exact hb c (List.mem_of_getLast? hc)

/-- A number is not cut off by its front. -/
theorem IsFront.not_isDigit {kind : TexLine} {front : List Char} (h : IsFront kind front) :
    ∀ c ∈ front.getLast?, isDigit c = false := by
  intro c hc
  cases kind with
  | warning message =>
    exact isDigit_of_isBlank (h.isBlank_getLast? c hc)
  | fileError file number message =>
    cases h
    rw [List.getLast?_concat] at hc
    cases hc
    decide
  | error message =>
    cases h
    cases hc
    decide
  | badBox message number =>
    cases h with
    | badBox h =>
      obtain ⟨r, rfl⟩ | ⟨r, rfl⟩ := h <;>
      · rw [List.getLast?_append] at hc
        cases hc
        decide
  | givenUp | plain => cases h

theorem spot?_eq {kind : TexLine} (hd : ls.drop i = line :: behind)
    (hk : TexLine.ofChars line = kind) : spot? ls i = spotOf? i line behind kind := by
  rw [spot?, hd, ← hk]

private theorem isAt_fileError {file number message : List Char} (hd : ls.drop i = line :: behind)
    (hk : TexLine.ofChars line = .fileError file number message) :
    IsAt ls (.fileError file number message) number ⟨i, file.length + 1⟩ := by
  have hspell := TexLine.spells_of_ofChars_eq hk
  cases hspell with
  | fileError _ hne hn =>
    have hline : ls[i]? = some ((file ++ [':']) ++ (number ++ ':' :: ' ' :: message)) := by
      rw [(getElem?_of_drop_eq_cons hd).1]
      simp
    have hfront : IsFront (.fileError file number message) (file ++ [':']) := .fileError
    have hat := isAt_of_getElem? hline (takeWhile_append_cons hn (by decide)).1 hne hfront
    rwa [List.length_append, List.length_singleton] at hat

private theorem findIdx?_isPlace_eq_none {lines : List (List Char)}
    (h : ∀ l ∈ lines, TexLine.errorPlace? l = none) : lines.findIdx? isPlace = none := by
  rw [List.findIdx?_eq_none_iff]
  intro l hl
  rw [isPlace, h l hl]
  rfl

private theorem isAt_error {message number : List Char} (hd : ls.drop i = line :: behind)
    (hn : (behind.take placeLookahead).findSome? TexLine.errorPlace? = some number) :
    ∃ k, (behind.take placeLookahead).findIdx? isPlace = some k ∧
      IsAt ls (.error message) number ⟨i + 1 + k, 2⟩ := by
  obtain ⟨l₁, l, l₂, hsplit, hplace, hno⟩ := List.findSome?_eq_some_iff.mp hn
  have hfirst : (behind.take placeLookahead).findIdx? isPlace = some l₁.length := by
    rw [hsplit, List.findIdx?_append, findIdx?_isPlace_eq_none hno, List.findIdx?_cons, isPlace,
      hplace]
    simp
  obtain ⟨rest, rfl, hrest, hne⟩ := TexLine.exists_of_errorPlace?_eq_some hplace
  have hline : ls[i + 1 + l₁.length]? = some (['l', '.'] ++ rest) := by
    have hsplit' : behind = l₁ ++ (('l' :: '.' :: rest) :: l₂ ++ behind.drop placeLookahead) := by
      rw [← List.append_assoc, ← hsplit, List.take_append_drop]
    rw [← (getElem?_of_drop_eq_cons hd).2, hsplit']
    simp
  exact ⟨_, hfirst, isAt_of_getElem? hline hrest hne .error⟩

/-- The number of a warning stands at the end of its last line. -/
theorem isAt_endColumn {message blanks words number stop rest : List Char} {k : Nat}
    (h : ls[k]? = some (blanks ++ words ++ (number ++ (stop ++ rest))))
    (hf : IsFront (.warning message) (blanks ++ words)) (hne : number ≠ [])
    (hd : ∀ c ∈ number, isDigit c = true) (hstop : stop = [] ∨ stop = ['.'])
    (hr : ∀ c ∈ rest, isBlank c = true) :
    IsAt ls (.warning message) number ⟨k, endColumn (ls.getD k [])⟩ := by
  have hnumber : (number ++ (stop ++ rest)).takeWhile isDigit = number := by
    refine takeWhile_append_of_head? hd fun c hc => ?_
    obtain rfl | rfl := hstop
    · exact isDigit_of_isBlank (hr c (List.mem_of_head? hc))
    · cases hc
      decide
  rw [List.getD_eq_getElem?_getD, h, Option.getD_some, endColumn_eq hf.not_isDigit hne hd hstop hr]
  exact isAt_of_getElem? h hnumber hne hf

/-- A number at the end of a text that is joined stands in the last piece of it. The words in front
may go back beyond this piece. -/
private theorem exists_of_joined {t piece before words end' : List Char}
    (h : t ++ ' ' :: piece = before ++ (words ++ end')) (hspace : ' ' ∉ end') :
    ∃ front, piece = front ++ end' ∧ (front <:+ words ∨ words <:+ front) := by
  have hend : end' <:+ t ++ ' ' :: piece := ⟨before ++ words, by rw [h, List.append_assoc]⟩
  obtain ⟨front, rfl⟩ : end' <:+ piece := by
    obtain hle | hle := List.suffix_or_suffix_of_suffix hend (List.suffix_append t _)
    · obtain rfl | hle := List.suffix_cons_iff.mp hle
      · exact absurd List.mem_cons_self hspace
      · exact hle
    · exact absurd (hle.subset List.mem_cons_self) hspace
  have hfront : t ++ [' '] ++ front = before ++ words := by
    refine (List.append_left_inj end').mp ?_
    rw [List.append_assoc before, ← h]
    simp
  exact ⟨front, rfl, List.suffix_or_suffix_of_suffix ⟨_, hfront⟩ ⟨_, rfl⟩⟩

private theorem isAt_warning {message text number : List Char} (hd : ls.drop i = line :: behind)
    (hk : TexLine.ofChars line = .warning message)
    (hn : TexLine.inputLine? (continued continuationLimit message behind) = some (text, number)) :
    IsAt ls (.warning message) number
      ⟨i + reach continuationLimit (line :: behind),
        endColumn (ls.getD (i + reach continuationLimit (line :: behind)) [])⟩ := by
  obtain ⟨before, stop, hs, hne, hdigit, hstop⟩ := TexLine.exists_of_inputLine?_eq_some hn
  have hspell := TexLine.spells_of_ofChars_eq hk
  obtain ⟨hline, hbehind⟩ := getElem?_of_drop_eq_cons hd
  cases hspell with
  | @warning source message =>
    obtain ⟨hreach, htext⟩ | ⟨n, last, t, hreach, hlast, hlne, htext⟩ :=
      continued_cases continuationLimit behind (endsWithStop_warning source message)
    · -- the number stands on the line of the warning itself
      have hlast : ls[i]? = some ([] ++ (source ++ " Warning: ".toList ++ before ++
          "on input line ".toList) ++ (number ++ (stop ++ []))) := by
        rw [hline, ← htext, hs]
        simp
      rw [hreach, Nat.add_zero]
      exact isAt_endColumn hlast (.warning (by simp) (.inr (List.suffix_append _ _))) hne hdigit
        hstop (by simp)
    · -- the number stands on the last line that was joined
      have hspace : ' ' ∉ number ++ stop := by
        rw [List.mem_append, not_or]
        refine ⟨notMem_of_isDigit hdigit (by decide), ?_⟩
        obtain rfl | rfl := hstop <;> decide
      obtain ⟨words, hwords, hinput⟩ := exists_of_joined (htext.symm.trans hs) hspace
      obtain ⟨blanks, rest, hsplit, hb, hr⟩ := exists_eq_append_trim last
      have hlast' : ls[i + 1 + n]? = some (blanks ++ words ++ (number ++ (stop ++ rest))) := by
        rw [← hbehind, hlast, hsplit, hwords]
        simp
      rw [hreach, Nat.add_comm n 1, ← Nat.add_assoc]
      exact isAt_endColumn hlast' (.warning hb hinput) hne hdigit hstop hr

private theorem isAt_badBox {message number : List Char} (hd : ls.drop i = line :: behind)
    (hk : TexLine.ofChars line = .badBox message number) :
    IsAt ls (.badBox message number) number
      ⟨i, message.length + ((line.drop message.length).takeWhile fun c => !isDigit c).length⟩ := by
  have hspell := TexLine.spells_of_ofChars_eq hk
  cases hspell with
  | @badBox lead before words _ rest _ hw hne hn =>
    have hwords : (words ++ rest).takeWhile (fun c => !isDigit c) = words := by
      cases rest with
      | nil => exact absurd hn.symm hne
      | cons c r =>
        have hc : isDigit c = true := by
          rw [← Bool.not_eq_false]
          intro hc
          rw [List.takeWhile_cons_of_neg (by simp [hc])] at hn
          exact hne hn.symm
        exact (takeWhile_append_cons (fun d hd => by simp [hw.not_isDigit d hd]) (by simp [hc])).1
    have hline : ls[i]? = some ((lead ++ before ++ words) ++ rest) := by
      rw [(getElem?_of_drop_eq_cons hd).1]
      simp
    rw [List.drop_left, hwords, ← List.length_append]
    refine isAt_of_getElem? hline hn hne (.badBox ?_)
    obtain h | h := hw.ending
    · exact .inl (h.trans (List.suffix_append _ _))
    · exact .inr (h.trans (List.suffix_append _ _))

/-- A line that reports a number has a spot for it, and any other line has none. -/
theorem spot?_cases (hd : ls.drop i = line :: behind) :
    number? (TexLine.ofChars line) behind = none ∧ spot? ls i = none ∨
      ∃ number s, number? (TexLine.ofChars line) behind = some number ∧ spot? ls i = some s ∧
        IsAt ls (TexLine.ofChars line) number s := by
  rw [spot?_eq hd rfl]
  cases hk : TexLine.ofChars line with
  | fileError file number message =>
    exact .inr ⟨number, _, rfl, rfl, isAt_fileError hd hk⟩
  | error message =>
    cases hn : (behind.take placeLookahead).findSome? TexLine.errorPlace? with
    | none =>
      have hno := findIdx?_isPlace_eq_none (List.findSome?_eq_none_iff.mp hn)
      exact .inl ⟨hn, by rw [spotOf?, hno]; rfl⟩
    | some number =>
      obtain ⟨k, hk, hat⟩ := isAt_error hd hn
      exact .inr ⟨number, _, hn, by rw [spotOf?, hk]; rfl, hat⟩
  | warning message =>
    cases hn : TexLine.inputLine? (continued continuationLimit message behind) with
    | none => exact .inl ⟨by rw [number?, hn]; rfl, by rw [spotOf?, hn]; rfl⟩
    | some cut =>
      refine .inr ⟨cut.2, _, by rw [number?, hn]; rfl, ?_, isAt_warning hd hk hn⟩
      rw [spotOf?, hn]
      simp only [Option.isSome_some, if_true, getD_of_drop_eq_cons hd]
  | badBox message number =>
    exact .inr ⟨number, _, rfl, rfl, isAt_badBox hd hk⟩
  | givenUp | plain => exact .inl ⟨rfl, rfl⟩

end Galley.TexLog
