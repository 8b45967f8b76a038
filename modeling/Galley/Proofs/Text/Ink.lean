import Galley.Proofs.Text.Lines
import Mathlib.Data.List.TakeWhile

/-!
# What is not blank in a text

The `ink` of a text is its characters that are not blank. Trimming keeps it (`ink_trim`), and so
does cutting a text into lines, because line breaks are blank (`ink_flatten_lines`).
-/

namespace Galley.Text

/-- The characters of a text that are not blank. -/
def ink (s : List Char) : List Char := s.filter fun c => !isBlank c

@[simp]
theorem ink_append (s t : List Char) : ink (s ++ t) = ink s ++ ink t := List.filter_append s t

theorem ink_cons_of_isBlank {c : Char} (h : isBlank c = true) (s : List Char) :
    ink (c :: s) = ink s := by
  simp [ink, h]

theorem ink_cons {c : Char} (h : isBlank c = false) (s : List Char) :
    ink (c :: s) = c :: ink s := by
  simp [ink, h]

theorem mem_ink_iff {c : Char} {s : List Char} : c ∈ ink s ↔ c ∈ s ∧ isBlank c = false := by
  simp [ink]

private theorem ink_dropWhile (s : List Char) : ink (s.dropWhile isBlank) = ink s := by
  induction s with
  | nil => rfl
  | cons c s ih =>
    cases hc : isBlank c with
    | true => rw [List.dropWhile_cons_of_pos hc, ih, ink_cons_of_isBlank hc]
    | false => rw [List.dropWhile_cons_of_neg (by simp [hc])]

private theorem ink_reverse (s : List Char) : ink s.reverse = (ink s).reverse := List.filter_reverse

@[simp]
theorem ink_trim (s : List Char) : ink (trim s) = ink s := by
  rw [trim, trimRight, trimLeft, ink_reverse, ink_dropWhile, ink_reverse, List.reverse_reverse,
    ink_dropWhile]

/-- The last character that is not blank ends a text. -/
theorem getLast?_trimRight (s : List Char) : (trimRight s).getLast? = (ink s).getLast? := by
  rw [trimRight, List.getLast?_reverse, ← List.head?_reverse, ← ink_reverse, ink,
    List.head?_filter, List.find?_not_eq_head?_dropWhile]

/-- There is no ink in a text just if trimming leaves nothing of it. -/
theorem trim_eq_nil_iff {s : List Char} : trim s = [] ↔ ink s = [] := by
  rw [← List.getLast?_eq_none_iff, trim, getLast?_trimRight, List.getLast?_eq_none_iff, trimLeft,
    ink_dropWhile]

private theorem flatten_push (c : Char) (ls : List (List Char)) :
    (push c ls).flatten = c :: ls.flatten := by
  cases ls <;> rfl

/-- Line breaks are blank. -/
theorem ink_flatten_lines (s : List Char) : ink (lines s).flatten = ink s := by
  fun_induction lines s with
  | case1 => rfl
  | case2 r ih =>
    rw [List.flatten_cons, List.nil_append, ih, ink_cons_of_isBlank (by decide),
      ink_cons_of_isBlank (by decide)]
  | case3 c r _ hc ih =>
    rw [List.flatten_cons, List.nil_append, ih, ink_cons_of_isBlank (isBlank_of_isLineBreak hc)]
  | case4 c r _ hc ih =>
    rw [flatten_push, ink, ink, List.filter_cons, List.filter_cons, ← ink, ← ink, ih]

end Galley.Text
