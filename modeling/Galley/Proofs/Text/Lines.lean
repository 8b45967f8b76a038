import Galley.Text.Digit
import Galley.Text.Lines
import Galley.Text.Word

/-!
# Lines that are joined and cut again

Lines without breaks in them that are joined by line feeds are cut into the same lines again
(`lines_joinWith`), but for an empty line at the end, which leaves no trace behind the last line
feed. What stands in front of a last line may be cut too; then only its end is left on that line
(`exists_lines_append`).
-/

namespace Galley.Text

/-- Whether there is no line break in a text. -/
def IsLine (s : List Char) : Prop := ∀ c ∈ s, isLineBreak c = false

instance (s : List Char) : Decidable (IsLine s) :=
  inferInstanceAs (Decidable (∀ c ∈ s, isLineBreak c = false))

theorem isLine_cons {c : Char} {s : List Char} :
    IsLine (c :: s) ↔ isLineBreak c = false ∧ IsLine s := List.forall_mem_cons

theorem isLine_append {s t : List Char} : IsLine (s ++ t) ↔ IsLine s ∧ IsLine t :=
  List.forall_mem_append

/-- What is not blank breaks no line. -/
theorem isLine_of_not_isBlank {s : List Char} (h : ∀ c ∈ s, isBlank c = false) : IsLine s := by
  intro c hc
  cases hb : isLineBreak c with
  | false => rfl
  | true => exact absurd (isBlank_of_isLineBreak hb) (by simp [h c hc])

/-- No printable character of ASCII breaks a line. -/
theorem isLineBreak_of_printable {c : Char} (h : 32 ≤ c.toNat ∧ c.toNat < 127) :
    isLineBreak c = false := by
  simp only [isLineBreak, Bool.or_eq_false_iff, Bool.and_eq_false_iff, decide_eq_false_iff_not,
    beq_eq_false_iff_ne]
  omega

/-- No digit of any script is blank. -/
theorem isBlank_of_isDigit {c : Char} (h : isDigit c = true) : isBlank c = false := by
  -- between the blanks of a range there is no digit either
  have hgap : ∀ gap ∈ [(0x85, 0xA0), (0x1680, 0x1680), (0x2000, 0x205F), (0x3000, 0x3000)],
      ∀ z ∈ digitZeros, z + 10 ≤ gap.1 ∨ gap.2 < z := by decide
  simp only [List.forall_mem_cons] at hgap
  obtain ⟨h1, h2, h3, h4, -⟩ := hgap
  rw [← Bool.not_eq_true]
  intro hb
  simp only [isBlank, Bool.or_eq_true, Bool.and_eq_true, decide_eq_true_eq, beq_iff_eq] at hb
  rw [isDigit, digitValue?] at h
  split at h
  · rw [if_neg (by omega)] at h
    cases h
  · obtain ⟨v, hv⟩ := Option.isSome_iff_exists.mp h
    obtain ⟨z, hz, -⟩ := Option.map_eq_some_iff.mp hv
    have hmem := List.mem_of_find?_eq_some hz
    have hrange := List.find?_some hz
    simp only [Bool.and_eq_true, decide_eq_true_eq] at hrange
    have := h1 z hmem
    have := h2 z hmem
    have := h3 z hmem
    have := h4 z hmem
    omega

theorem isDigit_of_isBlank {c : Char} (h : isBlank c = true) : isDigit c = false := by
  cases hd : isDigit c with
  | false => rfl
  | true =>
    rw [isBlank_of_isDigit hd] at h
    cases h

/-- A digit of any script breaks no line. -/
theorem isLineBreak_of_isDigit {c : Char} (h : isDigit c = true) : isLineBreak c = false := by
  cases hb : isLineBreak c with
  | false => rfl
  | true =>
    have hblank := isBlank_of_isDigit h
    rw [isBlank_of_isLineBreak hb] at hblank
    cases hblank

theorem isLine_of_isDigit {s : List Char} (h : ∀ c ∈ s, isDigit c = true) : IsLine s :=
  fun c hc => isLineBreak_of_isDigit (h c hc)

/-- No character of a name is blank. -/
theorem isBlank_of_isNameChar {c : Char} (h : isNameChar c = true) : isBlank c = false := by
  have hblanks : ∀ n ∈ List.range' 9 5 ++ List.range' 28 5 ++ List.range' 0x2000 11 ++
      [0x85, 0xA0, 0x1680, 0x2028, 0x2029, 0x202F, 0x205F, 0x3000],
      isNameChar (Char.ofNat n) = false := by decide +kernel
  rw [← Bool.not_eq_true]
  intro hb
  have hmem : c.toNat ∈ List.range' 9 5 ++ List.range' 28 5 ++ List.range' 0x2000 11 ++
      [0x85, 0xA0, 0x1680, 0x2028, 0x2029, 0x202F, 0x205F, 0x3000] := by
    simp only [isBlank, Bool.or_eq_true, Bool.and_eq_true, decide_eq_true_eq, beq_iff_eq] at hb
    simp only [List.mem_append, List.mem_range'_1, List.mem_cons, List.not_mem_nil, or_false]
    omega
  have hname := hblanks c.toNat hmem
  rw [Char.ofNat_toNat, h] at hname
  cases hname

theorem isNameChar_of_isBlank {c : Char} (h : isBlank c = true) : isNameChar c = false := by
  cases hn : isNameChar c with
  | false => rfl
  | true =>
    rw [isBlank_of_isNameChar hn] at h
    cases h

theorem isWordChar_of_isBlank {c : Char} (h : isBlank c = true) : isWordChar c = false :=
  (Bool.or_eq_false_iff.mp (isNameChar_of_isBlank h)).1

/-- No character of a name breaks a line. -/
theorem isLineBreak_of_isNameChar {c : Char} (h : isNameChar c = true) :
    isLineBreak c = false := by
  rw [← Bool.not_eq_true]
  intro hb
  have hblank := isBlank_of_isNameChar h
  rw [isBlank_of_isLineBreak hb] at hblank
  cases hblank

private theorem lines_cons {c : Char} (h : isLineBreak c = false) (s : List Char) :
    lines (c :: s) = push c (lines s) := by
  have hc : c ≠ '\r' := by
    rintro rfl
    exact absurd h (by decide)
  rw [lines]
  · simp [h]
  · rintro - rfl
    exact absurd rfl hc

/-- A line break ends a line, but a carriage return waits for its line feed. -/
private theorem lines_break {c : Char} (h : isLineBreak c = true) {s : List Char}
    (hc : c = '\r' → s.head? ≠ some '\n') : lines (c :: s) = [] :: lines s := by
  rw [lines]
  · exact if_pos h
  · rintro r rfl rfl
    exact hc rfl rfl

private theorem lines_cons_of_isLineBreak {c : Char} (h : isLineBreak c = true) (hc : c ≠ '\r')
    (s : List Char) : lines (c :: s) = [] :: lines s :=
  lines_break h fun hr => absurd hr hc

/-- A line ends at the first line break. -/
theorem lines_append_break {s : List Char} (h : IsLine s) {c : Char} (hb : isLineBreak c = true)
    (hc : c ≠ '\r') (t : List Char) : lines (s ++ c :: t) = s :: lines t := by
  induction s with
  | nil => exact lines_cons_of_isLineBreak hb hc t
  | cons d s ih =>
    rw [isLine_cons] at h
    rw [List.cons_append, lines_cons h.1, ih h.2]
    rfl

theorem lines_append_feed {s : List Char} (h : IsLine s) (t : List Char) :
    lines (s ++ '\n' :: t) = s :: lines t :=
  lines_append_break h (by decide) (by decide) t

theorem lines_eq_singleton {s : List Char} (h : IsLine s) (hs : s ≠ []) : lines s = [s] := by
  induction s with
  | nil => exact absurd rfl hs
  | cons c s ih =>
    rw [isLine_cons] at h
    rw [lines_cons h.1]
    by_cases hn : s = []
    · subst hn
      rfl
    · rw [ih h.2 hn]
      rfl

/-- **Joined lines are cut again**, but for an empty line at the end. -/
theorem lines_joinWith {ls : List (List Char)} (h : ∀ l ∈ ls, IsLine l) :
    lines (joinWith ['\n'] ls) = if ls.getLast? = some [] then ls.dropLast else ls := by
  induction ls with
  | nil => rfl
  | cons l rest ih =>
    rw [List.forall_mem_cons] at h
    cases rest with
    | nil =>
      rw [joinWith]
      by_cases hl : l = []
      · subst hl
        rfl
      · rw [lines_eq_singleton h.1 hl, if_neg (by simpa using hl)]
    | cons l' rest =>
      rw [joinWith, List.append_assoc, List.singleton_append, lines_append_feed h.1, ih h.2,
        List.getLast?_cons_cons, List.dropLast_cons_cons]
      · split <;> rfl
      · simp

/-! ### Two texts -/

private theorem push_append {c : Char} {ls : List (List Char)} (h : ls ≠ [])
    (ms : List (List Char)) : push c (ls ++ ms) = push c ls ++ ms := by
  obtain ⟨l, ls, rfl⟩ := List.exists_cons_of_ne_nil h
  rfl

private theorem lines_ne_nil {s : List Char} (h : s ≠ []) : lines s ≠ [] := by
  fun_cases lines s with
  | case1 => exact absurd rfl h
  | case2 | case3 => exact List.cons_ne_nil _ _
  | case4 c r => cases lines r <;> exact List.cons_ne_nil _ _

/-- Behind a line feed a new line starts, whatever stands there. -/
theorem lines_append_feed_append (x y : List Char) :
    lines (x ++ '\n' :: y) = lines (x ++ ['\n']) ++ lines y := by
  fun_induction lines x with
  | case1 =>
    rw [List.nil_append, lines_cons_of_isLineBreak (by decide) (by decide)]
    rfl
  | case2 r ih => simp only [List.cons_append, lines, ih]
  | case3 c r hno hc ih =>
    by_cases hr : c = '\r' ∧ r = []
    · -- the line feed belongs to the carriage return in front of it
      obtain ⟨rfl, rfl⟩ := hr
      rfl
    · have hbreak : ∀ t, c = '\r' → (r ++ '\n' :: t).head? ≠ some '\n' := by
        intro t hreturn hhead
        obtain ⟨d, r, rfl⟩ := List.exists_cons_of_ne_nil fun hnil => hr ⟨hreturn, hnil⟩
        cases hhead
        exact hno r hreturn rfl
      rw [List.cons_append, List.cons_append, lines_break hc (hbreak y), lines_break hc (hbreak []),
        ih]
      rfl
  | case4 c r _ hc ih =>
    have hc : isLineBreak c = false := by simpa using hc
    rw [List.cons_append, List.cons_append, lines_cons hc, lines_cons hc, ih,
      push_append (lines_ne_nil (by simp))]

/-! ### The last line -/

/-- What stands in front of a last line starts this line, or its end behind a line break does. -/
theorem exists_lines_append {u t w : List Char} (hu : '\r' ∉ u) (ht : lines t = [w]) :
    ∃ front p, lines (u ++ t) = front ++ [p ++ w] ∧ (∀ l ∈ front, l ⊆ u) ∧
      (front = [] ∧ p = u ∨
        front ≠ [] ∧ ∃ q c, isLineBreak c = true ∧ u = q ++ c :: p) := by
  induction u with
  | nil => exact ⟨[], [], ht, by simp, .inl ⟨rfl, rfl⟩⟩
  | cons c u ih =>
    rw [List.mem_cons, not_or] at hu
    obtain ⟨front, p, hl, hsub, hp⟩ := ih hu.2
    have hmore : ∀ l ∈ front, l ⊆ c :: u := fun l hmem =>
      List.subset_cons_of_subset c (hsub l hmem)
    rw [List.cons_append]
    cases hc : isLineBreak c with
    | true =>
      -- the break ends an empty line
      refine ⟨[] :: front, p, by rw [lines_cons_of_isLineBreak hc (Ne.symm hu.1), hl]; rfl,
        List.forall_mem_cons.mpr ⟨List.nil_subset _, hmore⟩, .inr ⟨List.cons_ne_nil _ _, ?_⟩⟩
      obtain ⟨-, rfl⟩ | ⟨-, q, d, hd, rfl⟩ := hp
      · exact ⟨[], c, hc, rfl⟩
      · exact ⟨c :: q, d, hd, rfl⟩
    | false =>
      rw [lines_cons hc, hl]
      obtain ⟨rfl, rfl⟩ | ⟨hne, q, d, hd, rfl⟩ := hp
      · exact ⟨[], c :: p, rfl, by simp, .inl ⟨rfl, rfl⟩⟩
      · obtain ⟨l, front, rfl⟩ := List.exists_cons_of_ne_nil hne
        rw [List.forall_mem_cons] at hmore
        exact ⟨(c :: l) :: front, p, rfl, List.forall_mem_cons.mpr
          ⟨List.cons_subset.mpr ⟨List.mem_cons_self, hmore.1⟩, hmore.2⟩,
          .inr ⟨List.cons_ne_nil _ _, c :: q, d, hd, rfl⟩⟩

/-- Reading a text file leaves a part without carriage returns as it is. -/
theorem unifyBreaks_append {s : List Char} (h : '\r' ∉ s) (t : List Char) :
    unifyBreaks (s ++ t) = s ++ unifyBreaks t := by
  induction s with
  | nil => rfl
  | cons c s ih =>
    rw [List.mem_cons, not_or] at h
    rw [List.cons_append, unifyBreaks, ih h.2, List.cons_append]
    · rintro r rfl
      exact absurd rfl h.1
    · rintro rfl
      exact absurd rfl h.1

end Galley.Text
