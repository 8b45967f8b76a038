import Galley.Log.Tex
import Galley.Proofs.Text.Ink

/-!
# How far a warning goes

A warning is continued on the lines behind it, up to a full stop or an empty line. How far this is
can be told from the lines alone (`reach`), without the text that they are joined to:
`continued_cases` says that this text ends as the last of its lines does. So two warnings reach the
same line just if they stand in front of the same end (`add_reach_eq_iff`).
-/

namespace Galley.TexLog

open Text

/-! ### Full stops -/

/-- The last character that is not blank decides. -/
private theorem endsWithStop_eq (s : List Char) : endsWithStop s = ((ink s).getLast? == some '.') :=
    by
  rw [endsWithStop, getLast?_trimRight]

/-- What has ink is decided by itself. -/
private theorem endsWithStop_append {t : List Char} (h : ink t ≠ []) (s : List Char) :
    endsWithStop (s ++ t) = endsWithStop t := by
  rw [endsWithStop_eq, endsWithStop_eq, ink_append, List.getLast?_append,
    Option.or_of_isSome (List.getLast?_isSome.mpr h)]

/-- A warning ends with a full stop if its message does. -/
theorem endsWithStop_warning (source message : List Char) :
    endsWithStop (source ++ (" Warning: ".toList ++ message)) = endsWithStop message := by
  by_cases h : ink message = []
  · have hcolon : ink (" Warning: ".toList ++ message) = "Warning:".toList := by
      rw [ink_append, h]
      rfl
    rw [endsWithStop_append (by rw [hcolon]; decide), endsWithStop_eq, endsWithStop_eq, hcolon, h]
    rfl
  · rw [← List.append_assoc, endsWithStop_append h]

/-! ### The lines of a warning -/

/-- Whether the first of the lines is not continued on the next one. -/
def endsHere : List (List Char) → Bool
  | line :: next :: _ => endsWithStop line || (trim next).isEmpty
  | _ => true

/-- On how many lines, at most `limit`, the first of the lines is continued. -/
def reach : Nat → List (List Char) → Nat
  | 0, _ => 0
  | limit + 1, ls => if endsHere ls then 0 else reach limit ls.tail + 1

variable {limit : Nat} {ls : List (List Char)}

private theorem reach_le (limit : Nat) (ls : List (List Char)) : reach limit ls ≤ limit := by
  induction limit generalizing ls with
  | zero => exact Nat.le_refl 0
  | succ limit ih =>
    rw [reach]
    split
    · exact Nat.zero_le _
    · exact Nat.succ_le_succ (ih ls.tail)

private theorem endsHere_of_lt_reach {k : Nat} (h : k < reach limit ls) :
    endsHere (ls.drop k) = false := by
  induction limit generalizing k ls with
  | zero => cases h
  | succ limit ih =>
    rw [reach] at h
    split at h
    · cases h
    · next hends =>
      cases k with
      | zero => simpa using hends
      | succ k =>
        rw [← List.drop_tail]
        exact ih (Nat.lt_of_succ_lt_succ h)

private theorem endsHere_reach (h : reach limit ls < limit) :
    endsHere (ls.drop (reach limit ls)) = true := by
  induction limit generalizing ls with
  | zero => cases h
  | succ limit ih =>
    rw [reach] at h ⊢
    split at h
    · next hends =>
      rw [if_pos hends]
      exact hends
    · next hends =>
      rw [if_neg hends, ← List.drop_tail]
      exact ih (Nat.lt_of_succ_lt_succ h)

/-- **Two warnings reach the same line** just if the second one begins before the first one ends,
and the end is a proper one. -/
theorem add_reach_eq_iff {i j : Nat} (h : i < j) :
    i + reach limit (ls.drop i) = j + reach limit (ls.drop j) ↔
      j ≤ i + reach limit (ls.drop i) ∧
        endsHere (ls.drop (i + reach limit (ls.drop i))) = true := by
  have hbefore : ∀ {i k}, i ≤ k → k < i + reach limit (ls.drop i) →
      endsHere (ls.drop k) = false := by
    intro i k hle hlt
    have hk : k - i < reach limit (ls.drop i) := by omega
    have hdrop := endsHere_of_lt_reach hk
    rwa [List.drop_drop, Nat.add_sub_cancel' hle] at hdrop
  have hle := reach_le limit (ls.drop i)
  constructor
  · intro heq
    have hlt : reach limit (ls.drop j) < limit := by omega
    have hend := endsHere_reach hlt
    rw [List.drop_drop, ← heq] at hend
    exact ⟨by omega, hend⟩
  · rintro ⟨hj, hend⟩
    obtain hlt | heq | hgt := Nat.lt_trichotomy (i + reach limit (ls.drop i))
      (j + reach limit (ls.drop j))
    · rw [hbefore hj hlt] at hend
      cases hend
    · exact heq
    · have hlt : reach limit (ls.drop j) < limit := by omega
      have hstop := endsHere_reach hlt
      rw [List.drop_drop, hbefore (by omega) hgt] at hstop
      cases hstop

/-- A text is continued as far as its line reaches, and then ends as the last line does. -/
theorem continued_cases (limit : Nat) {text line : List Char} (behind : List (List Char))
    (h : endsWithStop line = endsWithStop text) :
    reach limit (line :: behind) = 0 ∧ continued limit text behind = text ∨
      ∃ n last t, reach limit (line :: behind) = n + 1 ∧ behind[n]? = some last ∧
        trim last ≠ [] ∧ continued limit text behind = t ++ ' ' :: trim last := by
  induction limit generalizing text line behind with
  | zero => exact .inl ⟨rfl, by simp [continued]⟩
  | succ limit ih =>
    cases behind with
    | nil => exact .inl ⟨rfl, by simp [continued]⟩
    | cons next rest =>
      have hends : endsHere (line :: next :: rest) =
          (endsWithStop text || (trim next).isEmpty) := by
        rw [endsHere, h]
      rw [reach, continued, hends]
      cases hs : endsWithStop text || (trim next).isEmpty with
      | true => exact .inl ⟨rfl, rfl⟩
      | false =>
        have hne : trim next ≠ [] := by
          rw [Bool.or_eq_false_iff, List.isEmpty_eq_false_iff] at hs
          exact hs.2
        have hnext : endsWithStop next = endsWithStop (trimRight text ++ ' ' :: trim next) := by
          have hink : ink (' ' :: trim next) = ink next := by
            rw [ink_cons_of_isBlank (by decide), ink_trim]
          rw [endsWithStop_append (by rw [hink]; exact trim_eq_nil_iff.not.mp hne),
            endsWithStop_eq, endsWithStop_eq, hink]
        rw [if_neg Bool.false_ne_true, if_neg Bool.false_ne_true]
        obtain ⟨hreach, htext⟩ | ⟨n, last, t, hreach, hlast, hlne, htext⟩ := ih rest hnext
        · exact .inr ⟨0, next, _, congrArg Nat.succ hreach, rfl, hne, htext⟩
        · exact .inr ⟨n + 1, last, t, congrArg Nat.succ hreach, hlast, hlne, htext⟩

end Galley.TexLog
