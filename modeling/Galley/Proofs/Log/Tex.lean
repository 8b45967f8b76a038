import Galley.Log.Tex
import Galley.Proofs.Log.FileStack

/-!
# Reading a TeX log line by line

What a line adds to the entries of a log when it is known what it adds by itself
(`entriesOfLines_cons`), and what it does not: an empty line at the end of a log changes nothing
(`entriesOfLines_append_empty`).
-/

namespace Galley.TexLog

open Text

variable {files : FileStack}

/-- A line adds its entry, if it has one, to those of the lines behind it. -/
theorem entriesOfLines_cons {line : List Char} {rest : List (List Char)} {entry : Option Entry}
    (h : entryOfLine files (TexLine.ofChars line) rest = .ok entry) :
    entriesOfLines files (line :: rest) =
      (entry.toList ++ ·) <$> entriesOfLines (filesAfter files line) rest := by
  rw [entriesOfLines, h]
  cases entriesOfLines (filesAfter files line) rest <;> rfl

theorem filesAfter_of_plain {line : List Char} (h : TexLine.ofChars line = .plain) :
    filesAfter files line = files.feed line := by
  rw [filesAfter, h]

theorem filesAfter_of_ne_plain {line : List Char} (h : TexLine.ofChars line ≠ .plain) :
    filesAfter files line = files := by
  rw [filesAfter]
  split
  · next hp => exact absurd hp h
  · rfl

/-- A report adds its entry and leaves the files as they are. -/
theorem entriesOfLines_report {line : List Char} {rest : List (List Char)} {kind : TexLine}
    {entry : Option Entry} (hk : TexLine.ofChars line = kind) (hp : kind ≠ .plain)
    (h : entryOfLine files kind rest = .ok entry) :
    entriesOfLines files (line :: rest) = (entry.toList ++ ·) <$> entriesOfLines files rest := by
  rw [← hk] at h hp
  rw [entriesOfLines_cons h, filesAfter_of_ne_plain hp]

/-- A plain line adds nothing and tells which files are opened and closed. -/
theorem entriesOfLines_plain {line : List Char} {rest : List (List Char)}
    (h : TexLine.ofChars line = .plain) :
    entriesOfLines files (line :: rest) = entriesOfLines (files.feed line) rest := by
  have hentry : entryOfLine files (TexLine.ofChars line) rest = .ok none := by rw [h]; rfl
  rw [entriesOfLines_cons hentry, filesAfter_of_plain h]
  cases entriesOfLines (files.feed line) rest <;> rfl

/-- Plain lines in front only tell which files are open. -/
theorem entriesOfLines_append {front : List (List Char)}
    (h : ∀ line ∈ front, TexLine.ofChars line = .plain) (rest : List (List Char)) :
    entriesOfLines files (front ++ rest) =
      entriesOfLines (front.foldl FileStack.feed files) rest := by
  induction front generalizing files with
  | nil => rfl
  | cons line front ih =>
    rw [List.forall_mem_cons] at h
    rw [List.cons_append, entriesOfLines_plain h.1, ih h.2, List.foldl_cons]

/-- Plain lines that open and close nothing for good do not matter. -/
theorem entriesOfLines_append_of_plain {front : List (List Char)}
    (h : ∀ line ∈ front, TexLine.ofChars line = .plain ∧ balanced 0 line = true)
    (rest : List (List Char)) :
    entriesOfLines files (front ++ rest) = entriesOfLines files rest := by
  rw [entriesOfLines_append fun line hl => (h line hl).1]
  induction front with
  | nil => rfl
  | cons line front ih =>
    rw [List.forall_mem_cons] at h
    rw [List.foldl_cons, FileStack.feed_of_balanced h.1.2, ih h.2]

/-! ### Messages -/

/-- A trimmed message without a full stop stays as it is. -/
theorem cleanMessage_eq_self {m : List Char} (ht : trim m = m) (hs : m.getLast? ≠ some '.') :
    cleanMessage m = m := by
  rw [cleanMessage, ht]
  split
  · next r hr =>
    rw [List.getLast?_eq_head?_reverse, hr] at hs
    exact absurd rfl hs
  · next r _ hr =>
    rw [List.getLast?_eq_head?_reverse, hr] at hs
    exact absurd rfl hs
  · rw [List.reverse_reverse]

/-- The full stop of a message is taken off. -/
theorem cleanMessage_append_stop {m : List Char} (hne : m ≠ []) (ht : trim m = m)
    (hs : m.getLast? ≠ some '.') : cleanMessage (m ++ ['.']) = m := by
  have htrim : trim (m ++ ['.']) = m ++ ['.'] := by
    rw [trim_eq_self_iff] at ht ⊢
    obtain ⟨c, r, rfl⟩ := List.exists_cons_of_ne_nil hne
    refine ⟨by simpa using ht.1, ?_⟩
    rintro d hd
    rw [List.getLast?_concat] at hd
    cases hd
    decide
  rw [cleanMessage, htrim, List.reverse_append, List.reverse_singleton, List.singleton_append]
  split
  · next r hr =>
    rw [List.cons.injEq] at hr
    rw [List.getLast?_eq_head?_reverse, hr.2] at hs
    exact absurd rfl hs
  · next r _ hr =>
    rw [List.cons.injEq] at hr
    rw [← hr.2, List.reverse_reverse]
  · next hno => exact absurd rfl (hno _)

/-! ### Continued warnings -/

/-- A text that ends with a full stop is not continued. -/
theorem continued_append_stop (limit : Nat) (text : List Char) (behind : List (List Char)) :
    continued limit (text ++ ['.']) behind = text ++ ['.'] := by
  have hstop : endsWithStop (text ++ ['.']) = true := by
    have htrim : trimRight (text ++ ['.']) = text ++ ['.'] := by
      rw [trimRight_eq_self_iff]
      intro c hc
      rw [List.getLast?_concat] at hc
      cases hc
      decide
    rw [endsWithStop, htrim, List.getLast?_concat]
    rfl
  cases limit with
  | zero => simp [continued]
  | succ limit =>
    cases behind with
    | nil => simp [continued]
    | cons line rest => rw [continued, hstop, Bool.true_or, if_pos rfl]

/-! ### Empty lines at the end -/

private theorem continued_append_empty (limit : Nat) (text : List Char)
    (behind : List (List Char)) :
    continued limit text (behind ++ [[]]) = continued limit text behind := by
  induction limit generalizing text behind with
  | zero => simp [continued]
  | succ limit ih =>
    cases behind with
    | nil => simp [continued, trim, trimLeft, trimRight]
    | cons line rest => simp only [List.cons_append, continued, ih]

private theorem findSome?_errorPlace?_append_empty (limit : Nat) (behind : List (List Char)) :
    ((behind ++ [[]]).take limit).findSome? TexLine.errorPlace? =
      (behind.take limit).findSome? TexLine.errorPlace? := by
  have hempty : ∀ k, (List.take k [[]]).findSome? TexLine.errorPlace? = none := by
    intro k
    cases k with
    | zero => rfl
    | succ k =>
      have hplace : TexLine.errorPlace? [] = none := rfl
      rw [List.take_succ_cons, List.take_nil, List.findSome?_cons, hplace]
      rfl
  rw [List.take_append, List.findSome?_append, hempty, Option.or_none]

private theorem entryOfLine_append_empty (line : TexLine) (behind : List (List Char)) :
    entryOfLine files line (behind ++ [[]]) = entryOfLine files line behind := by
  cases line with
  | error message =>
    rw [entryOfLine, entryOfLine, findSome?_errorPlace?_append_empty]
  | warning message =>
    rw [entryOfLine, entryOfLine, continued_append_empty]
  | fileError | badBox | givenUp | plain => rfl

/-- An empty line at the end of a log changes nothing. -/
theorem entriesOfLines_append_empty (ls : List (List Char)) :
    entriesOfLines files (ls ++ [[]]) = entriesOfLines files ls := by
  induction ls generalizing files with
  | nil => exact entriesOfLines_plain (by decide)
  | cons line rest ih =>
    rw [List.cons_append, entriesOfLines, entriesOfLines, entryOfLine_append_empty, ih]

end Galley.TexLog
