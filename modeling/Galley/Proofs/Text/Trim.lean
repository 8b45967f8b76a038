import Galley.Text.Trim
import Mathlib.Data.List.TakeWhile

/-!
# Trimmed texts and pieces of texts

A text is trimmed just if it neither starts nor ends with a blank (`trim_eq_self_iff`). The other
lemmas say where `dropLead?`, `cutFirst?` and `cutLast?` cut a text that is put together from
pieces.
-/

namespace Galley.Text

/-- A condition on the characters of a text is decided by going through the text, rather than
through all characters there are. -/
instance decidableForallMem {s : List Char} {p : Char → Prop} [DecidablePred p] :
    Decidable (∀ c ∈ s, p c) := List.decidableBAll p s

/-- So is a condition on the first or the last character. -/
instance decidableForallMemOption {o : Option Char} {p : Char → Prop} [DecidablePred p] :
    Decidable (∀ c ∈ o, p c) := Option.decidableForallMem o

/-! ### Trimming -/

theorem dropWhile_eq_self_iff {p : Char → Bool} {s : List Char} :
    s.dropWhile p = s ↔ ∀ c ∈ s.head?, p c = false := by
  cases s with
  | nil => simp
  | cons c r =>
    cases hc : p c with
    | false => simp [hc]
    | true =>
      have hlen : (r.dropWhile p).length ≤ r.length := (List.dropWhile_sublist p).length_le
      have hne : r.dropWhile p ≠ c :: r := by
        intro h
        rw [h, List.length_cons] at hlen
        omega
      simp [hc, hne]

theorem trimRight_eq_self_iff {s : List Char} :
    trimRight s = s ↔ ∀ c ∈ s.getLast?, isBlank c = false := by
  rw [trimRight, List.reverse_eq_iff, dropWhile_eq_self_iff, List.head?_reverse]

/-- A text is trimmed just if it neither starts nor ends with a blank. -/
theorem trim_eq_self_iff {s : List Char} :
    trim s = s ↔ (∀ c ∈ s.head?, isBlank c = false) ∧ ∀ c ∈ s.getLast?, isBlank c = false := by
  constructor
  · intro h
    have hl : trimLeft s = s := by
      have hlen := congrArg List.length h
      have h1 : (trim s).length ≤ (trimLeft s).length := by
        rw [trim, trimRight, List.length_reverse]
        exact Nat.le_trans (List.dropWhile_sublist isBlank).length_le (by simp)
      have h2 : (trimLeft s).Sublist s := List.dropWhile_sublist isBlank
      exact h2.eq_of_length_le (by omega)
    rw [trim, hl] at h
    exact ⟨dropWhile_eq_self_iff.mp hl, trimRight_eq_self_iff.mp h⟩
  · rintro ⟨hl, hr⟩
    rw [trim, trimLeft, dropWhile_eq_self_iff.mpr hl, trimRight_eq_self_iff.mpr hr]

/-- What trimming takes off the end is blank. -/
private theorem exists_eq_trimRight_append (s : List Char) : ∃ r, s = trimRight s ++ r ∧
    ∀ c ∈ r, isBlank c = true := by
  refine ⟨(s.reverse.takeWhile isBlank).reverse, ?_, fun c hc => ?_⟩
  · rw [trimRight, ← List.reverse_append, List.takeWhile_append_dropWhile, List.reverse_reverse]
  · exact List.mem_takeWhile_imp (List.mem_reverse.mp hc)

/-- What trimming takes off is blank. -/
theorem exists_eq_append_trim (s : List Char) : ∃ l r, s = l ++ (trim s ++ r) ∧
    (∀ c ∈ l, isBlank c = true) ∧ ∀ c ∈ r, isBlank c = true := by
  have hl : s.takeWhile isBlank ++ trimLeft s = s := List.takeWhile_append_dropWhile
  obtain ⟨r, hr, hblank⟩ := exists_eq_trimRight_append (trimLeft s)
  rw [← trim] at hr
  exact ⟨_, r, by rw [← hr, hl], fun c hc => List.mem_takeWhile_imp hc, hblank⟩

theorem trim_append_left {l : List Char} (h : ∀ c ∈ l, isBlank c = true) (s : List Char) :
    trim (l ++ s) = trim s := by
  rw [trim, trimLeft, List.dropWhile_append_of_pos h, ← trimLeft, ← trim]

private theorem trimRight_append_right {r : List Char} (h : ∀ c ∈ r, isBlank c = true)
    (s : List Char) : trimRight (s ++ r) = trimRight s := by
  rw [trimRight, List.reverse_append,
    List.dropWhile_append_of_pos fun c hc => h c (List.mem_reverse.mp hc), ← trimRight]

theorem trim_append_right {r : List Char} (h : ∀ c ∈ r, isBlank c = true) (s : List Char) :
    trim (s ++ r) = trim s := by
  rw [trim, trim, trimLeft, trimLeft, List.dropWhile_append]
  split
  · next hs =>
    have hr : r.dropWhile isBlank = [] := List.dropWhile_eq_nil_iff.mpr h
    rw [List.isEmpty_iff.mp hs, hr]
  · exact trimRight_append_right h _

/-- What is trimmed off the end comes behind the last character that is not blank. -/
theorem trimRight_append_cons {c : Char} (hc : isBlank c = false) (s t : List Char) :
    trimRight (s ++ c :: t) = s ++ c :: trimRight t := by
  have hstop : ([c] ++ s.reverse).dropWhile isBlank = [c] ++ s.reverse :=
    dropWhile_eq_self_iff.mpr fun d hd => Option.some.inj hd ▸ hc
  rw [trimRight, List.reverse_append, List.reverse_cons, List.append_assoc, List.dropWhile_append,
    hstop]
  split
  · next ht => simp [trimRight, List.isEmpty_iff.mp ht]
  · simp [trimRight]

/-- What is trimmed off at the end makes no difference to what is trimmed later. -/
theorem trim_trimRight (s : List Char) : trim (trimRight s) = trim s := by
  obtain ⟨r, hs, hr⟩ := exists_eq_trimRight_append s
  rw [← trim_append_right hr, ← hs]

@[simp]
theorem trim_trim (s : List Char) : trim (trim s) = trim s := by
  obtain ⟨l, r, hs, hl, hr⟩ := exists_eq_append_trim s
  rw [← trim_append_right hr (trim s), ← trim_append_left hl (trim s ++ r), ← hs]

/-! ### Joined pieces -/

/-- What stands in front of the first piece stands in front of the whole. -/
theorem joinWith_append_cons (sep s w : List Char) (ws : List (List Char)) :
    joinWith sep ((s ++ w) :: ws) = s ++ joinWith sep (w :: ws) := by
  cases ws <;> simp [joinWith]

/-! ### Leads and cuts -/

@[simp]
theorem dropLead?_append (lead s : List Char) : dropLead? lead (lead ++ s) = some s := by
  induction lead with
  | nil => simp [dropLead?]
  | cons c lead ih => simpa [dropLead?] using ih

theorem dropLead?_eq_some_iff {lead s r : List Char} :
    dropLead? lead s = some r ↔ s = lead ++ r := by
  constructor
  · intro h
    induction lead generalizing s with
    | nil => exact Option.some.inj h
    | cons c lead ih =>
      cases s with
      | nil => cases h
      | cons d s =>
        rw [dropLead?] at h
        split at h
        · next hc => rw [hc, ih h, List.cons_append]
        · cases h
  · rintro rfl
    exact dropLead?_append lead r

/-- What does not start with `lead` has no rest behind it. -/
theorem dropLead?_eq_none {lead s : List Char} (h : ¬ lead <+: s) : dropLead? lead s = none := by
  cases hd : dropLead? lead s with
  | none => rfl
  | some r => exact absurd ⟨r, (dropLead?_eq_some_iff.mp hd).symm⟩ h

theorem cutFirst?_append {sep : Char} {a b : List Char} (h : sep ∉ a) :
    cutFirst? sep (a ++ sep :: b) = some (a, b) := by
  induction a with
  | nil => simp [cutFirst?]
  | cons c a ih =>
    rw [List.mem_cons, not_or] at h
    rw [List.cons_append, cutFirst?, if_neg (Ne.symm h.1), ih h.2]
    rfl

theorem cutFirst?_eq_none {sep : Char} {s : List Char} (h : sep ∉ s) :
    cutFirst? sep s = none := by
  induction s with
  | nil => rfl
  | cons c s ih =>
    rw [List.mem_cons, not_or] at h
    rw [cutFirst?, if_neg (Ne.symm h.1), ih h.2]
    rfl

/-- There is no separator in front of the first one. -/
theorem cutFirst?_eq_some_iff {sep : Char} {s a b : List Char} :
    cutFirst? sep s = some (a, b) ↔ s = a ++ sep :: b ∧ sep ∉ a := by
  refine ⟨fun h => ?_, fun h => h.1 ▸ cutFirst?_append h.2⟩
  induction s generalizing a with
  | nil => cases h
  | cons c s ih =>
    rw [cutFirst?] at h
    split at h
    · next hc =>
      cases h
      exact ⟨by rw [hc, List.nil_append], List.not_mem_nil⟩
    · next hc =>
      obtain ⟨⟨a, b⟩, hcut, heq⟩ := Option.map_eq_some_iff.mp h
      cases heq
      obtain ⟨rfl, hno⟩ := ih hcut
      exact ⟨rfl, by simp [Ne.symm hc, hno]⟩

theorem cutLast?_eq_none_iff {sep : Char} {s : List Char} :
    cutLast? sep s = none ↔ sep ∉ s := by
  induction s with
  | nil => simp [cutLast?]
  | cons c s ih =>
    rw [cutLast?, List.mem_cons, not_or, ← ih]
    cases cutLast? sep s with
    | none => simp [eq_comm]
    | some cut => simp

/-- Nothing behind the last separator is one. -/
theorem cutLast?_eq_some_iff {sep : Char} {s a b : List Char} :
    cutLast? sep s = some (a, b) ↔ s = a ++ sep :: b ∧ sep ∉ b := by
  constructor
  · intro h
    induction s generalizing a with
    | nil => cases h
    | cons c s ih =>
      rw [cutLast?] at h
      split at h
      · next before after hs =>
        cases h
        obtain ⟨rfl, hb⟩ := ih hs
        exact ⟨rfl, hb⟩
      · next hs =>
        split at h
        · next hc =>
          cases h
          exact ⟨by rw [hc, List.nil_append], cutLast?_eq_none_iff.mp hs⟩
        · cases h
  · rintro ⟨rfl, hb⟩
    induction a with
    | nil =>
      rw [List.nil_append, cutLast?, cutLast?_eq_none_iff.mpr hb]
      exact if_pos rfl
    | cons c a ih => rw [List.cons_append, cutLast?, ih]

theorem takeWhile_eq_self {p : Char → Bool} {s : List Char} (h : ∀ c ∈ s, p c = true) :
    s.takeWhile p = s := by
  have happ : (s ++ []).takeWhile p = s ++ [].takeWhile p := List.takeWhile_append_of_pos h
  rwa [List.append_nil, List.takeWhile_nil, List.append_nil] at happ

/-- The elements that satisfy a condition end in front of what does not start with one. -/
theorem takeWhile_append_of_head? {α : Type} {p : α → Bool} {a r : List α}
    (ha : ∀ d ∈ a, p d = true) (hr : ∀ c ∈ r.head?, p c = false) :
    (a ++ r).takeWhile p = a := by
  rw [List.takeWhile_append_of_pos ha]
  cases r with
  | nil => simp
  | cons c r => simp [hr c rfl]

theorem dropWhile_append_of_head? {p : Char → Bool} {a r : List Char} (ha : ∀ d ∈ a, p d = true)
    (hr : ∀ c ∈ r.head?, p c = false) : (a ++ r).dropWhile p = r := by
  rw [List.dropWhile_append_of_pos ha, dropWhile_eq_self_iff.mpr hr]

/-- The characters that satisfy a condition end where one does not. -/
theorem takeWhile_append_cons {p : Char → Bool} {a r : List Char} {c : Char}
    (ha : ∀ d ∈ a, p d = true) (hc : p c = false) :
    (a ++ c :: r).takeWhile p = a ∧ (a ++ c :: r).dropWhile p = c :: r := by
  rw [List.takeWhile_append_of_pos ha, List.dropWhile_append_of_pos ha]
  simp [hc]

end Galley.Text
