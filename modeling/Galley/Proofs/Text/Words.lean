import Galley.Proofs.Text.Trim

/-!
# Texts that are split again

Where `fields` and `words` cut a text that is put together from pieces: fields end at the first
separator, and words that are kept apart by blanks are found again.
-/

namespace Galley.Text

/-! ### Fields -/

theorem fields_eq_singleton {sep : Char} {s : List Char} (h : sep ∉ s) : fields sep s = [s] := by
  induction s with
  | nil => rfl
  | cons c s ih =>
    rw [List.mem_cons, not_or] at h
    rw [fields, if_neg (by simpa using Ne.symm h.1), ih h.2, push]

theorem fields_append_cons {sep : Char} {s : List Char} (h : sep ∉ s) (t : List Char) :
    fields sep (s ++ sep :: t) = s :: fields sep t := by
  induction s with
  | nil => simp [fields]
  | cons c s ih =>
    rw [List.mem_cons, not_or] at h
    rw [List.cons_append, fields, if_neg (by simpa using Ne.symm h.1), ih h.2, push]

/-- Pieces that are joined by a separator which none of them has are cut apart again. -/
theorem fields_intercalate {sep : Char} {ws : List (List Char)} (h : ∀ w ∈ ws, sep ∉ w)
    (hne : ws ≠ []) : fields sep ([sep].intercalate ws) = ws := by
  induction ws with
  | nil => exact absurd rfl hne
  | cons w ws ih =>
    rw [List.forall_mem_cons] at h
    cases ws with
    | nil => rw [List.intercalate_singleton, fields_eq_singleton h.1]
    | cons v ws =>
      rw [List.intercalate_cons_cons, List.append_assoc, List.singleton_append,
        fields_append_cons h.1, ih h.2 (List.cons_ne_nil v ws)]

/-- The characters of a field are those of the text, but for separators. -/
theorem mem_of_mem_fields {sep d : Char} {s w : List Char} (h : w ∈ fields sep s) (hd : d ∈ w) :
    d ∈ s ∧ d ≠ sep := by
  induction s generalizing w with
  | nil =>
    rw [fields, List.mem_singleton] at h
    exact absurd (h ▸ hd) List.not_mem_nil
  | cons c s ih =>
    have behind : (∃ v ∈ fields sep s, d ∈ v) → d ∈ c :: s ∧ d ≠ sep := fun ⟨v, hv, hd⟩ =>
      (ih hv hd).imp_left (List.mem_cons_of_mem c)
    rw [fields] at h
    by_cases hc : c = sep
    · rw [if_pos (by simpa using hc), List.mem_cons] at h
      obtain rfl | h := h
      · exact absurd hd List.not_mem_nil
      · exact behind ⟨w, h, hd⟩
    · rw [if_neg (by simpa using hc)] at h
      cases hf : fields sep s with
      | nil =>
        rw [hf, push, List.mem_singleton] at h
        subst h
        obtain rfl := List.mem_singleton.mp hd
        exact ⟨List.mem_cons_self, hc⟩
      | cons v vs =>
        rw [hf, push, List.mem_cons] at h
        rw [hf] at behind
        obtain rfl | h := h
        · obtain rfl | hd := List.mem_cons.mp hd
          · exact ⟨List.mem_cons_self, hc⟩
          · exact behind ⟨v, List.mem_cons_self, hd⟩
        · exact behind ⟨w, List.mem_cons_of_mem v h, hd⟩

/-- There is no separator in a field. -/
theorem notMem_of_mem_fields {sep : Char} {s w : List Char} (h : w ∈ fields sep s) : sep ∉ w :=
  fun hs => (mem_of_mem_fields h hs).2 rfl

/-! ### Words -/

/-- Blanks in front of a text are passed over. -/
theorem words_append_of_isBlank {s : List Char} (h : ∀ c ∈ s, isBlank c = true) (t : List Char) :
    words (s ++ t) = words t := by
  induction s with
  | nil => rfl
  | cons c s ih =>
    rw [List.forall_mem_cons] at h
    rw [List.cons_append, words, if_pos h.1, ih h.2]

/-- A word ends where the text ends or a blank follows. -/
theorem words_append {w t : List Char} (hw : w ≠ []) (h : ∀ c ∈ w, isBlank c = false)
    (ht : t.head?.all isBlank = true) : words (w ++ t) = w :: words t := by
  induction w with
  | nil => exact absurd rfl hw
  | cons c w ih =>
    rw [List.forall_mem_cons] at h
    rw [List.cons_append, words, if_neg (by simp [h.1])]
    cases w with
    | nil => exact if_pos ht
    | cons d w =>
      rw [ih (List.cons_ne_nil d w) h.2, push]
      exact if_neg (by simp [h.2 d List.mem_cons_self])

/-- Blanks in front of a trimmed text are trimmed off. -/
theorem trim_append_of_isBlank {s t : List Char} (h : ∀ c ∈ s, isBlank c = true)
    (ht : trim t = t) : trim (s ++ t) = t :=
  (trim_append_left h t).trans ht

end Galley.Text
