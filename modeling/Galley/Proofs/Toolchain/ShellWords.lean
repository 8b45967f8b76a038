import Galley.Toolchain.Options

/-!
# Lines of shell words

The rules by which the shell cuts a line into words: blanks separate words, everything is literal
between single quotes, and between double quotes everything that means nothing there. `words?`
reads a line by them and refuses one that asks the shell for more than words. What is written word
by word is read back (`words?_intercalate_quote`), and so is the line that a driver hands on
(`TexOptions.words?_commandLine`).
-/

namespace Galley

namespace ShellWord

/-! ### Reading -/

/-- Between which quotes a character stands. -/
inductive Quotes where
  | none
  | single
  | double
  deriving DecidableEq, Repr

/-- The characters that separate words. -/
def separators : List Char := [' ', '\t', '\n']

/-- The characters that mean more than themselves outside of quotes. -/
def operators : List Char := "|&;<>()$`\\*?[]#~!\x7b\x7d".toList

/-- The characters that mean more than themselves between double quotes. -/
def expanders : List Char := "$`\\".toList

/-- The words of a text, `word` being the one that is read already if there is one. -/
def readWords (quotes : Quotes) (word : Option (List Char)) :
    List Char → Option (List (List Char))
  | [] => if quotes = .none then some word.toList else none
  | c :: r =>
    let taken := some (word.getD [] ++ [c])
    match quotes with
    | .none =>
      if c ∈ separators then (word.toList ++ ·) <$> readWords .none none r
      else if c = '\'' then readWords .single (some (word.getD [])) r
      else if c = '"' then readWords .double (some (word.getD [])) r
      else if c ∈ operators then none
      else readWords .none taken r
    | .single => if c = '\'' then readWords .none word r else readWords .single taken r
    | .double =>
      if c = '"' then readWords .none word r
      else if c ∈ expanders then none
      else readWords .double taken r

/-- The words of a line, unless it is more than words. -/
def words? (line : String) : Option (List String) :=
  (readWords .none none line.toList).map (·.map String.ofList)

/-! ### What is quoted is read back -/

variable {word w r : List Char} {c : Char}

private theorem readWords_of_isPlain (h : isPlain c = true) (so : Option (List Char)) :
    readWords .none so (c :: r) = readWords .none (some (so.getD [] ++ [c])) r := by
  have hmeaning : ∀ d ∈ separators ++ ['\'', '"'] ++ operators, isPlain d = false := by decide
  have hnot : c ∉ separators ++ ['\'', '"'] ++ operators := by
    intro hc
    rw [hmeaning c hc] at h
    cases h
  simp only [List.mem_append, List.mem_cons, List.not_mem_nil, or_false, not_or] at hnot
  obtain ⟨⟨hseparator, hsingle, hdouble⟩, hoperator⟩ := hnot
  rw [readWords]
  simp only [if_neg hseparator, if_neg hsingle, if_neg hdouble, if_neg hoperator]

private theorem readWords_plain (h : ∀ c ∈ w, isPlain c = true) (word : List Char) :
    readWords .none (some word) (w ++ r) = readWords .none (some (word ++ w)) r := by
  induction w generalizing word with
  | nil => rw [List.nil_append, List.append_nil]
  | cons c w ih =>
    rw [List.forall_mem_cons] at h
    rw [List.cons_append, readWords_of_isPlain h.1, Option.getD_some, ih h.2, List.append_assoc,
      List.singleton_append]

/-- Single quotes are left for a single quote, which stands in double quotes. -/
private theorem readWords_single (word : List Char) :
    readWords .single (some word) (w.flatMap quoteChar ++ '\'' :: r) =
      readWords .none (some (word ++ w)) r := by
  induction w generalizing word with
  | nil => simp [readWords]
  | cons c w ih =>
    have hone : ∀ s : List Char, readWords .single (some word) (quoteChar c ++ s) =
        readWords .single (some (word ++ [c])) s := by
      intro s
      by_cases hc : c = '\''
      · subst hc
        rfl
      · rw [quoteChar, if_neg hc, List.singleton_append, readWords]
        simp only [if_neg hc, Option.getD_some]
    rw [List.flatMap_cons, List.append_assoc, hone, ih, List.append_assoc, List.singleton_append]

/-- A word that is quoted is one word, whatever stands behind it. -/
theorem readWords_quote (w : String) (r : List Char) :
    readWords .none none ((quote w).toList ++ r) = readWords .none (some w.toList) r := by
  rw [quote]
  split
  · next h =>
    subst h
    rfl
  · split
    · next hne hplain =>
      obtain ⟨c, cs, hw⟩ := List.exists_cons_of_ne_nil fun h => hne (String.toList_eq_nil_iff.mp h)
      rw [hw, List.all_eq_true, List.forall_mem_cons] at hplain
      rw [hw, List.cons_append, readWords_of_isPlain hplain.1, Option.getD_none, List.nil_append,
        readWords_plain hplain.2, List.singleton_append]
    · have hopen : ∀ s, readWords .none none ('\'' :: s) = readWords .single (some []) s :=
        fun s => rfl
      rw [String.toList_ofList, List.cons_append, List.cons_append, List.append_assoc,
        List.singleton_append, hopen, readWords_single, List.nil_append]

/-- **Words are read back** from a line that they are written to, quoted and with blanks between
them. -/
theorem words?_intercalate_quote (ws : List String) :
    words? (" ".intercalate (ws.map quote)) = some ws := by
  have hread : ∀ ws : List String, readWords .none none
      ([' '].intercalate (ws.map fun w => (quote w).toList)) = some (ws.map String.toList) := by
    intro ws
    induction ws with
    | nil => rfl
    | cons w ws ih =>
      cases ws with
      | nil =>
        have hlast := readWords_quote w []
        rw [List.append_nil] at hlast
        simpa [readWords] using hlast
      | cons w' ws =>
        have hblank : ∀ s, readWords .none (some w.toList) (' ' :: s) =
            ([w.toList] ++ ·) <$> readWords .none none s := fun s => rfl
        rw [List.map_cons, List.map_cons, List.intercalate_cons_cons, List.append_assoc,
          readWords_quote, List.singleton_append, hblank]
        rw [List.map_cons] at ih
        rw [ih]
        rfl
  have hblank : " ".toList = [' '] := rfl
  rw [words?, String.toList_intercalate, hblank, List.map_map]
  have hall := hread ws
  simp only [Function.comp_def, hall, Option.map_some, List.map_map, String.ofList_toList,
    List.map_id']

end ShellWord

namespace TexOptions

/-- The arguments need no quotes. -/
private theorem quote_of_mem_arguments {o : TexOptions} {a : String} (h : a ∈ o.arguments) :
    ShellWord.quote a = a := by
  have hall : ∀ a ∈ ["-interaction=nonstopmode", "-file-line-error", "-synctex=-1",
      "-shell-escape"], ShellWord.quote a = a := by decide
  simp only [arguments, List.mem_cons, List.mem_append, List.mem_ite_nil_right, List.not_mem_nil,
    or_false] at h
  refine hall a ?_
  obtain rfl | (⟨-, rfl⟩ | ⟨-, rfl⟩) | ⟨-, rfl⟩ := h <;> decide

/-- The program and its arguments are read back from the line that they are handed on in. -/
theorem words?_commandLine (o : TexOptions) :
    ShellWord.words? o.commandLine = some (toString o.program :: o.arguments) := by
  have hquoted : o.arguments.map ShellWord.quote = o.arguments :=
    (List.map_congr_left fun a ha => quote_of_mem_arguments ha).trans (List.map_id' _)
  have hline := ShellWord.words?_intercalate_quote (toString o.program :: o.arguments)
  rwa [List.map_cons, hquoted] at hline

/-- Shell commands are allowed by one argument alone. -/
theorem mem_arguments_iff (o : TexOptions) :
    "-shell-escape" ∈ o.arguments ↔ o.shellEscape = true := by
  simp [arguments, List.mem_ite_nil_right]

end TexOptions

end Galley
