import Galley.Proofs.Log.Spot

/-!
# Entries with the same spot

The search for the place of an error goes on beyond the errors that follow it, and a warning is
continued on lines that report other warnings. So two entries may take their lines from the same
spot of a log. `entries_spots` tells when they do: the second one begins in front of the spot, and
both are errors or both are warnings.

Between kinds it is the front of the number that rules this out (`IsFront.eq_error`,
`IsFront.eq_warning`). Between errors both searches end at the first line that shows a place, and
between warnings both texts end at the same full stop or empty line (`add_reach_eq_iff`).
-/

namespace Galley.TexLog

open Text

variable {files : FileStack} {ls : List (List Char)} {i j : Nat} {p q : Spot}

/-- The lines of a log that report something. -/
def reporting (ls : List (List Char)) : List Nat :=
  (List.range ls.length).filter fun i => (spot? ls i).isSome

/-- The kind of a line of a log. -/
def kindOf (ls : List (List Char)) (i : Nat) : TexLine := TexLine.ofChars (ls.getD i [])

/-- Whether the error or warning at line `i` is followed by another one, at line `j`, before the
spot on line `k` that gives its number. A warning that is cut off by the limit on its lines stops
in front of what another one reaches. -/
inductive RunsInto (ls : List (List Char)) (i j k : Nat) : Prop
  | error {message other : List Char} (hi : kindOf ls i = .error message)
      (hj : kindOf ls j = .error other) (h : j < k)
  | warning {message other : List Char} (hi : kindOf ls i = .warning message)
      (hj : kindOf ls j = .warning other) (h : j ≤ k) (hend : endsHere (ls.drop k) = true)

/-! ### Entries and spots -/

/-- What a line reports has the number of the line as its own. -/
private theorem number?_of_entryOfLine {kind : TexLine} {behind : List (List Char)}
    {entry : Option Entry} (h : entryOfLine files kind behind = .ok entry) :
    number? kind behind = none ∧ entry = none ∨
      ∃ number n e, number? kind behind = some number ∧ entry = some e ∧
        readDigits number = .ok n ∧ e.line = n := by
  obtain ⟨f, hline, heq⟩ := exists_entryOfLine_eq files kind behind
  rw [heq] at h
  cases hnumber : number? kind behind with
  | none =>
    rw [hnumber] at h
    cases h
    exact .inl ⟨rfl, rfl⟩
  | some number =>
    rw [hnumber] at h
    cases hn : readDigits number with
    | error e =>
      simp only [hn] at h
      cases h
    | ok n =>
      simp only [hn] at h
      cases h
      exact .inr ⟨number, n, f n, rfl, rfl, hn, hline n⟩

private theorem IsAt.takesLine {kind : TexLine} {number : List Char} {s : Spot} {e : Entry}
    {n : Nat} (h : IsAt ls kind number s) (hn : readDigits number = .ok n) (he : e.line = n) :
    TakesLine ls e s := by
  have hdigit : ∀ c ∈ number, isDigit c = true := by
    rw [← h.numeral_eq]
    exact fun c hc => List.mem_takeWhile_imp hc
  obtain ⟨hnumeral, hvalue⟩ := isNumeral_of_readDigits h.ne_nil hdigit hn
  refine ⟨h.numeral_eq ▸ hnumeral, h.isFront.not_isDigit, ?_⟩
  rw [he, h.numeral_eq, hvalue]

/-- The entries of the lines behind the first ones take their lines from the spots of these
lines. -/
private theorem forall₂_takesLine {rest : List (List Char)} {es : List Entry}
    (hd : ls.drop i = rest) (h : entriesOfLines files rest = .ok es) :
    List.Forall₂ (fun e i => ∃ s, spot? ls i = some s ∧ TakesLine ls e s) es
      ((List.range' i rest.length).filter fun i => (spot? ls i).isSome) := by
  induction rest generalizing files i es with
  | nil =>
    cases h
    exact .nil
  | cons line behind ih =>
    have hbehind : ls.drop (i + 1) = behind := by rw [← List.tail_drop, hd, List.tail_cons]
    obtain ⟨entry, hentry, h⟩ := exists_of_bind_eq_ok h
    obtain ⟨more, hmore, h⟩ := exists_of_bind_eq_ok h
    cases h
    have hrest := ih hbehind hmore
    rw [List.length_cons, List.range'_succ]
    obtain ⟨hnone, rfl⟩ | ⟨number, n, e, hsome, rfl, hn, he⟩ := number?_of_entryOfLine hentry
    · obtain ⟨-, hspot⟩ | ⟨_, _, hsome, -⟩ := spot?_cases hd
      · rw [List.filter_cons_of_neg (by simp [hspot])]
        exact hrest
      · rw [hnone] at hsome
        cases hsome
    · obtain ⟨hnone, -⟩ | ⟨number', s, hsome', hspot, hat⟩ := spot?_cases hd
      · rw [hnone] at hsome
        cases hsome
      · rw [hsome] at hsome'
        cases hsome'
        rw [List.filter_cons_of_pos (by simp [hspot])]
        exact .cons ⟨s, hspot, hat.takesLine hn he⟩ hrest

/-! ### The lines of the spots -/

private theorem drop_eq_cons_of_spot? (h : spot? ls i = some p) :
    ∃ behind, ls.drop i = ls.getD i [] :: behind := by
  cases hd : ls.drop i with
  | nil =>
    rw [spot?, hd] at h
    cases h
  | cons line behind =>
    have hline := getD_of_drop_eq_cons hd 0
    exact ⟨behind, by rw [Nat.add_zero] at hline; rw [← hline]; rfl⟩

private theorem isFront_of_spot? (h : spot? ls i = some p) : IsFront (kindOf ls i) (p.front ls) :=
    by
  obtain ⟨behind, hd⟩ := drop_eq_cons_of_spot? h
  obtain ⟨-, hnone⟩ | ⟨_, s, -, hsome, hat⟩ := spot?_cases hd
  · rw [hnone] at h
    cases h
  · rw [hsome] at h
    cases h
    exact hat.isFront

/-- An error has its number on the first line behind it that shows a place. -/
private theorem spot?_error {message : List Char} (h : spot? ls i = some p)
    (hk : kindOf ls i = .error message) :
    i < p.line ∧ p.column = 2 ∧ isPlace (ls.getD p.line []) = true ∧
      ∀ k, i < k → k < p.line → isPlace (ls.getD k []) = false := by
  obtain ⟨behind, hd⟩ := drop_eq_cons_of_spot? h
  rw [spot?_eq hd hk] at h
  obtain ⟨k, hfind, rfl⟩ := Option.map_eq_some_iff.mp h
  obtain ⟨hlt, hplace, hno⟩ := List.findIdx?_eq_some_iff_getElem.mp hfind
  have hget : ∀ m (hm : m < (behind.take placeLookahead).length),
      (behind.take placeLookahead)[m] = ls.getD (i + 1 + m) [] := by
    intro m hm
    rw [List.length_take] at hm
    rw [List.getElem_take, List.getD_eq_getElem?_getD, ← (getElem?_of_drop_eq_cons hd).2,
      List.getElem?_eq_getElem (by omega), Option.getD_some]
  refine ⟨Nat.lt_of_lt_of_le (Nat.lt_succ_self i) (Nat.le_add_right _ k), rfl, ?_,
    fun m hi hm => ?_⟩
  · rwa [hget k hlt] at hplace
  · obtain ⟨d, rfl⟩ := Nat.exists_eq_add_of_le (Nat.succ_le_of_lt hi)
    have hdk : d < k := Nat.lt_of_add_lt_add_left hm
    have hfree := hno d hdk
    rwa [hget d (Nat.lt_trans hdk hlt), Bool.not_eq_true] at hfree

/-- A warning has its number at the end of the line that it reaches. -/
private theorem spot?_warning {message : List Char} (h : spot? ls i = some p)
    (hk : kindOf ls i = .warning message) :
    p = ⟨i + reach continuationLimit (ls.drop i),
      endColumn (ls.getD (i + reach continuationLimit (ls.drop i)) [])⟩ := by
  obtain ⟨behind, hd⟩ := drop_eq_cons_of_spot? h
  rw [spot?_eq hd hk, spotOf?] at h
  split at h
  · rw [hd, ← getD_of_drop_eq_cons hd]
    exact (Option.some.inj h).symm
  · cases h

/-- Any other report has its number on its own line. -/
private theorem spot?_line (h : spot? ls i = some p) :
    (∃ m, kindOf ls i = .error m) ∨ (∃ m, kindOf ls i = .warning m) ∨ p.line = i := by
  obtain ⟨behind, hd⟩ := drop_eq_cons_of_spot? h
  cases hk : kindOf ls i with
  | error message => exact .inl ⟨message, rfl⟩
  | warning message => exact .inr (.inl ⟨message, rfl⟩)
  | fileError | badBox =>
    rw [spot?_eq hd hk] at h
    cases h
    exact .inr (.inr rfl)
  | givenUp | plain =>
    rw [spot?_eq hd hk] at h
    cases h

/-- No report has its number in front of its line. -/
theorem le_line_of_spot? (h : spot? ls i = some p) : i ≤ p.line := by
  obtain ⟨m, hk⟩ | ⟨m, hk⟩ | hline := spot?_line h
  · exact Nat.le_of_lt (spot?_error h hk).1
  · rw [spot?_warning h hk]
    exact Nat.le_add_right i _
  · exact Nat.le_of_eq hline.symm

/-! ### The fronts of the spots -/

theorem IsFront.eq_error {kind : TexLine} {message front : List Char}
    (h : IsFront (.error message) front) (h' : IsFront kind front) : ∃ m, kind = .error m := by
  have hlast : front.getLast? = some '.' := by
    cases h
    rfl
  cases h' with
  | error => exact ⟨_, rfl⟩
  | fileError =>
    rw [List.getLast?_concat] at hlast
    cases hlast
  | warning hb hw =>
    have hfront : IsFront (.warning []) _ := .warning hb hw
    exact absurd (hfront.isBlank_getLast? '.' hlast) (by decide)
  | badBox hplace =>
    obtain ⟨r, rfl⟩ | ⟨r, rfl⟩ := hplace <;>
    · rw [List.getLast?_append] at hlast
      cases hlast

/-- Words that do not start with a blank do not go back into the blanks in front. -/
private theorem suffix_of_suffix_blanks {words blanks s : List Char}
    (hw : ∀ c ∈ words.head?, isBlank c = false) (hb : ∀ c ∈ blanks, isBlank c = true)
    (h : words <:+ blanks ++ s) : words <:+ s := by
  obtain ⟨r, hr⟩ := h
  obtain ⟨a, ha, rfl⟩ | ⟨a, -, hs⟩ := List.append_eq_append_iff.mp hr
  · cases a with
    | nil => exact List.suffix_refl s
    | cons c a =>
      have hc := hb c (ha ▸ by simp)
      rw [hw c rfl] at hc
      cases hc
  · exact ⟨a, hs.symm⟩

theorem IsFront.eq_warning {kind : TexLine} {message front : List Char}
    (h : IsFront (.warning message) front) (h' : IsFront kind front) :
    ∃ m, kind = .warning m := by
  cases h' with
  | warning => exact ⟨_, rfl⟩
  | fileError =>
    exact absurd (h.isBlank_getLast? ':' (by rw [List.getLast?_concat]; rfl)) (by decide)
  | error => exact absurd (h.isBlank_getLast? '.' rfl) (by decide)
  | badBox hplace =>
    cases h with
    | @warning _ blanks words hb hw =>
      have hno : ∀ place ∈ ["at line ".toList, "at lines ".toList],
          ¬ place <:+ "on input line ".toList ∧ ¬ "on input line ".toList <:+ place := by decide
      obtain ⟨place, hmem, hwords⟩ : ∃ place ∈ ["at line ".toList, "at lines ".toList],
          place <:+ words := by
        obtain hplace | hplace := hplace
        · exact ⟨_, List.mem_cons_self, suffix_of_suffix_blanks (by decide) hb hplace⟩
        · exact ⟨_, List.mem_cons_of_mem _ List.mem_cons_self,
            suffix_of_suffix_blanks (by decide) hb hplace⟩
      obtain hw | hw := hw
      · exact absurd (hwords.trans hw) (hno place hmem).1
      · obtain hle | hle := List.suffix_or_suffix_of_suffix hwords hw
        · exact absurd hle (hno place hmem).1
        · exact absurd hle (hno place hmem).2

/-! ### The main result -/

/-- Two reports have the same spot just if the first one runs into the second. -/
theorem eq_iff_runsInto (h : i < j) (hp : spot? ls i = some p) (hq : spot? ls j = some q) :
    p = q ↔ RunsInto ls i j p.line := by
  constructor
  · rintro rfl
    have hfront := isFront_of_spot? hp
    have hfront' := isFront_of_spot? hq
    obtain ⟨m, hk⟩ | ⟨m, hk⟩ | hline := spot?_line hp
    · rw [hk] at hfront
      obtain ⟨m', hk'⟩ := hfront.eq_error hfront'
      exact .error hk hk' (spot?_error hq hk').1
    · rw [hk] at hfront
      obtain ⟨m', hk'⟩ := hfront.eq_warning hfront'
      have heq := (spot?_warning hp hk).symm.trans (spot?_warning hq hk')
      obtain ⟨hj, hend⟩ := (add_reach_eq_iff h).mp (congrArg Spot.line heq)
      rw [spot?_warning hp hk]
      exact .warning hk hk' hj hend
    · have hle := le_line_of_spot? hq
      omega
  · intro hruns
    cases hruns with
    | error hk hk' hlt =>
      obtain ⟨-, hcol, hplace, hfree⟩ := spot?_error hp hk
      obtain ⟨-, hcol', hplace', hfree'⟩ := spot?_error hq hk'
      have hline : p.line = q.line := by
        obtain hpq | heq | hqp := Nat.lt_trichotomy p.line q.line
        · rw [hfree' p.line hlt hpq] at hplace
          cases hplace
        · exact heq
        · have hle := le_line_of_spot? hq
          rw [hfree q.line (by omega) hqp] at hplace'
          cases hplace'
      exact Spot.ext hline (hcol.trans hcol'.symm)
    | warning hk hk' hle hend =>
      rw [spot?_warning hp hk] at hle hend
      have heq := (add_reach_eq_iff h).mpr ⟨hle, hend⟩
      rw [spot?_warning hp hk, spot?_warning hq hk', heq]

/-- **Where entries take their lines from**: each line that reports something makes one entry, with
the number at the spot of the line. Two lines have the same spot just if the search for the number
of the first one runs into the second. -/
theorem entries_spots {text : List Char} {baseDir mainFile : Path} {es : List Entry}
    (h : entries text baseDir mainFile = .ok es) :
    List.Forall₂ (fun e i => ∃ s, spot? (lines text) i = some s ∧ TakesLine (lines text) e s) es
        (reporting (lines text)) ∧
      ∀ i j p q, i < j → spot? (lines text) i = some p → spot? (lines text) j = some q →
        (p = q ↔ RunsInto (lines text) i j p.line) := by
  refine ⟨?_, fun i j p q => eq_iff_runsInto⟩
  rw [reporting, List.range_eq_range']
  exact forall₂_takesLine rfl h

/-- A log of two errors, the second one directly behind what is shown of the first. -/
def errorsLog (shown : List (List Char)) : List Char :=
  joinWith ['\n'] ("! Undefined control sequence.".toList :: shown ++
    ["! Missing $ inserted.".toList, "l.5 x^".toList])

/-- Two errors that show their places take their lines from them. -/
theorem entries_spots_shown :
    entries (errorsLog ["l.3 \\foo".toList]) ⟨.root, ["d"]⟩ ⟨.root, ["d", "r.tex"]⟩ =
        .ok [⟨.error, some ⟨.root, ["d", "r.tex"]⟩, 3, "Undefined control sequence"⟩,
          ⟨.error, some ⟨.root, ["d", "r.tex"]⟩, 5, "Missing $ inserted"⟩] ∧
      spot? (lines (errorsLog ["l.3 \\foo".toList])) 0 = some ⟨1, 2⟩ ∧
      spot? (lines (errorsLog ["l.3 \\foo".toList])) 2 = some ⟨3, 2⟩ ∧
      ¬ RunsInto (lines (errorsLog ["l.3 \\foo".toList])) 0 2 1 := by
  have hentries : entries (errorsLog ["l.3 \\foo".toList]) ⟨.root, ["d"]⟩
      ⟨.root, ["d", "r.tex"]⟩ =
        .ok [⟨.error, some ⟨.root, ["d", "r.tex"]⟩, 3, "Undefined control sequence"⟩,
          ⟨.error, some ⟨.root, ["d", "r.tex"]⟩, 5, "Missing $ inserted"⟩] := by decide +kernel
  have hfirst : spot? (lines (errorsLog ["l.3 \\foo".toList])) 0 = some ⟨1, 2⟩ := by
    decide +kernel
  have hsecond : spot? (lines (errorsLog ["l.3 \\foo".toList])) 2 = some ⟨3, 2⟩ := by
    decide +kernel
  exact ⟨hentries, hfirst, hsecond,
    fun h => absurd (((entries_spots hentries).2 0 2 _ _ (by decide) hfirst hsecond).mpr h)
      (by decide)⟩

/-- **An error without a place is given the place of the next one.** -/
theorem entries_errorsLog_nil :
    entries (errorsLog []) ⟨.root, ["d"]⟩ ⟨.root, ["d", "r.tex"]⟩ =
        .ok [⟨.error, some ⟨.root, ["d", "r.tex"]⟩, 5, "Undefined control sequence"⟩,
          ⟨.error, some ⟨.root, ["d", "r.tex"]⟩, 5, "Missing $ inserted"⟩] ∧
      reporting (lines (errorsLog [])) = [0, 1] ∧
      spot? (lines (errorsLog [])) 0 = some ⟨2, 2⟩ ∧
      spot? (lines (errorsLog [])) 1 = some ⟨2, 2⟩ := by
  decide +kernel

end Galley.TexLog
