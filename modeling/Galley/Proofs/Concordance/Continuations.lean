import Galley.Concordance.Reader

/-!
# Continuations in a concordance file

Continuations are joined before the entries of a file are looked for, so this is what happens to a
text that is put together from pieces: it can be joined piece by piece where the second piece does
not start with a blank (`joinContinuations_append`). What is put between numbers, a `Gap`, becomes
a run of blanks, and no entry comes about between the entries (`infix_of_infix_join`).
-/

namespace Galley.Concordance

open Text

/-! ### Texts in pieces -/

private theorem behindLineFeed?_of_head {s : List Char} (h : ∀ c ∈ s.head?, isBlank c = false) :
    behindLineFeed? s = none := by
  cases s with
  | nil => rfl
  | cons c s => rw [behindLineFeed?, if_neg (by simp [h c rfl])]

/-- What does not start with a blank is no part of a continuation in front of it. -/
private theorem behindLineFeed?_append (s : List Char) {t : List Char}
    (ht : ∀ c ∈ t.head?, isBlank c = false) :
    behindLineFeed? (s ++ t) = (behindLineFeed? s).map (· ++ t) := by
  induction s with
  | nil => exact behindLineFeed?_of_head ht
  | cons c s ih =>
    rw [List.cons_append, behindLineFeed?, behindLineFeed?, ih]
    cases isBlank c with
    | false => rfl
    | true =>
      cases behindLineFeed? s with
      | some u => rfl
      | none =>
        by_cases hc : c = '\n' <;> simp [hc]

theorem joinContinuations_nil : joinContinuations [] = [] := by rw [joinContinuations]

theorem joinContinuations_cons {c : Char} (hc : c ≠ '%') (s : List Char) :
    joinContinuations (c :: s) = c :: joinContinuations s := by
  rw [joinContinuations, if_neg hc]

private theorem joinContinuations_percent {s u : List Char} (h : behindLineFeed? s = some u) :
    joinContinuations ('%' :: s) = ' ' :: joinContinuations u := by
  rw [joinContinuations, if_pos rfl]
  split
  · next v hv => rw [Option.some.inj (h.symm.trans hv)]
  · next hv => rw [h] at hv; cases hv

private theorem joinContinuations_percent_none {s : List Char} (h : behindLineFeed? s = none) :
    joinContinuations ('%' :: s) = '%' :: joinContinuations s := by
  rw [joinContinuations, if_pos rfl]
  split
  · next v hv => rw [h] at hv; cases hv
  · rfl

/-- **A text is joined piece by piece** where a piece does not start with a blank. -/
theorem joinContinuations_append (s : List Char) {t : List Char}
    (ht : ∀ c ∈ t.head?, isBlank c = false) :
    joinContinuations (s ++ t) = joinContinuations s ++ joinContinuations t := by
  fun_induction joinContinuations s with
  | case1 => rfl
  | case2 r u hu _ ih =>
    rw [List.cons_append, joinContinuations_percent (u := u ++ t), ih, List.cons_append]
    rw [behindLineFeed?_append r ht, hu, Option.map_some]
  | case3 r hn ih =>
    rw [List.cons_append, joinContinuations_percent_none, ih, List.cons_append]
    rw [behindLineFeed?_append r ht, hn, Option.map_none]
  | case4 c r hc ih => rw [List.cons_append, joinContinuations_cons hc, ih, List.cons_append]

/-- Nothing happens to a piece without percent signs. -/
theorem joinContinuations_append_of_notMem {s : List Char} (hs : '%' ∉ s) (t : List Char) :
    joinContinuations (s ++ t) = s ++ joinContinuations t := by
  induction s with
  | nil => rfl
  | cons c s ih =>
    rw [List.mem_cons, not_or] at hs
    rw [List.cons_append, joinContinuations_cons (Ne.symm hs.1), ih hs.2, List.cons_append]

/-! ### Gaps -/

/-- What may stand between numbers: a blank, or a percent sign with blanks and a line feed behind
it. -/
inductive GapPiece where
  | blank (c : Char) (isBlank_eq : isBlank c = true)
  | continuation (blanks : List Char) (isBlank_of_mem : ∀ c ∈ blanks, isBlank c = true)

/-- The text of a piece. -/
def GapPiece.text : GapPiece → List Char
  | .blank c _ => [c]
  | .continuation blanks _ => '%' :: (blanks ++ ['\n'])

/-- The text of several pieces. -/
def gapText (pieces : List GapPiece) : List Char := pieces.flatMap GapPiece.text

@[simp]
theorem gapText_nil : gapText [] = [] := rfl

@[simp]
theorem gapText_cons (p : GapPiece) (ps : List GapPiece) :
    gapText (p :: ps) = p.text ++ gapText ps := rfl

/-- What is left behind the last line feed of the blanks in front of pieces are some of them. -/
private theorem behindLineFeed?_gapText (ps : List GapPiece) :
    behindLineFeed? (gapText ps) = none ∨
      ∃ qs, qs.length ≤ ps.length ∧ behindLineFeed? (gapText ps) = some (gapText qs) := by
  induction ps with
  | nil => exact .inl rfl
  | cons p ps ih =>
    cases p with
    | continuation blanks _ => exact .inl (behindLineFeed?_of_head (by rintro c ⟨⟩; decide))
    | blank c hc =>
      have heq : behindLineFeed? (gapText (.blank c hc :: ps)) =
          (behindLineFeed? (gapText ps)).or (if c = '\n' then some (gapText ps) else none) := by
        rw [gapText_cons, GapPiece.text, List.singleton_append, behindLineFeed?, if_pos hc]
      rw [heq]
      obtain hn | ⟨qs, hlen, hs⟩ := ih
      · rw [hn, Option.none_or]
        by_cases hf : c = '\n'
        · exact .inr ⟨ps, Nat.le_succ _, if_pos hf⟩
        · exact .inl (if_neg hf)
      · exact .inr ⟨qs, Nat.le_succ_of_le hlen, by rw [hs, Option.some_or]⟩

/-- A continuation ends at its line feed or at a later one. -/
private theorem behindLineFeed?_continuation {blanks : List Char}
    (h : ∀ c ∈ blanks, isBlank c = true) (ps : List GapPiece) : ∃ qs, qs.length ≤ ps.length ∧
      behindLineFeed? (blanks ++ '\n' :: gapText ps) = some (gapText qs) := by
  induction blanks with
  | nil =>
    rw [List.nil_append, behindLineFeed?, if_pos (by decide), if_pos rfl]
    obtain hn | ⟨qs, hlen, hs⟩ := behindLineFeed?_gapText ps
    · exact ⟨ps, Nat.le_refl _, by rw [hn, Option.none_or]⟩
    · exact ⟨qs, hlen, by rw [hs, Option.some_or]⟩
  | cons c blanks ih =>
    rw [List.forall_mem_cons] at h
    obtain ⟨qs, hlen, hs⟩ := ih h.2
    exact ⟨qs, hlen, by rw [List.cons_append, behindLineFeed?, if_pos h.1, hs, Option.some_or]⟩

/-- **Pieces become blanks**, and as soon as there is a piece there is a blank. -/
theorem isBlank_of_mem_join_gapText (ps : List GapPiece) :
    (∀ c ∈ joinContinuations (gapText ps), isBlank c = true) ∧
      (ps ≠ [] → joinContinuations (gapText ps) ≠ []) := by
  -- a continuation may take pieces behind it along, so the induction is on how many there are
  induction hn : ps.length using Nat.strongRecOn generalizing ps with
  | ind n ih =>
    subst hn
    cases ps with
    | nil => simp [joinContinuations_nil]
    | cons p ps =>
      have hlt : ps.length < (p :: ps).length := Nat.lt_succ_self _
      cases p with
      | blank c hc =>
        have hp : c ≠ '%' := by rintro rfl; exact absurd hc (by decide)
        rw [gapText_cons, GapPiece.text, List.singleton_append, joinContinuations_cons hp]
        exact ⟨List.forall_mem_cons.mpr ⟨hc, (ih _ hlt ps rfl).1⟩, fun _ => List.cons_ne_nil _ _⟩
      | continuation blanks hb =>
        obtain ⟨qs, hlen, hs⟩ := behindLineFeed?_continuation hb ps
        have heq : joinContinuations (gapText (.continuation blanks hb :: ps)) =
            ' ' :: joinContinuations (gapText qs) := by
          rw [gapText_cons, GapPiece.text, List.cons_append, List.append_assoc,
            List.singleton_append, joinContinuations_percent hs]
        rw [heq]
        exact ⟨List.forall_mem_cons.mpr ⟨by decide, (ih _ (by omega) qs rfl).1⟩,
          fun _ => List.cons_ne_nil _ _⟩

/-! ### What stands between entries -/

private theorem behindLineFeed?_isSuffix {s u : List Char} (h : behindLineFeed? s = some u) :
    u <:+ s := by
  induction s with
  | nil => cases h
  | cons c s ih =>
    rw [behindLineFeed?] at h
    split at h
    · cases hs : behindLineFeed? s with
      | some v =>
        rw [hs, Option.some_or] at h
        exact (ih (hs.trans h)).trans (List.suffix_cons c s)
      | none =>
        rw [hs, Option.none_or] at h
        split at h
        · cases h
          exact List.suffix_cons c _
        · cases h
    · cases h

private theorem prefix_of_prefix_join {w s : List Char} (hw : ' ' ∉ w)
    (h : w <+: joinContinuations s) : w <+: s := by
  induction w generalizing s with
  | nil => exact List.nil_prefix
  | cons a w ih =>
    rw [List.mem_cons, not_or] at hw
    cases s with
    | nil =>
      rw [joinContinuations_nil] at h
      exact absurd (List.prefix_nil.mp h) (List.cons_ne_nil _ _)
    | cons c s =>
      have hcons (hj : joinContinuations (c :: s) = c :: joinContinuations s) :
          a :: w <+: c :: s := by
        rw [hj, List.cons_prefix_cons] at h
        exact List.cons_prefix_cons.mpr ⟨h.1, ih hw.2 h.2⟩
      by_cases hc : c = '%'
      · subst hc
        cases hb : behindLineFeed? s with
        | none => exact hcons (joinContinuations_percent_none hb)
        | some u =>
          rw [joinContinuations_percent hb, List.cons_prefix_cons] at h
          exact absurd h.1.symm hw.1
      · exact hcons (joinContinuations_cons hc s)

/-- What has no space in it does not come about where continuations are joined. -/
theorem infix_of_infix_join {w s : List Char} (hw : ' ' ∉ w) (hn : w ≠ [])
    (h : w <:+: joinContinuations s) : w <:+: s := by
  obtain ⟨a, w', rfl⟩ := List.exists_cons_of_ne_nil hn
  -- where a character is kept, what starts with it started with it before
  have step {c : Char} {r : List Char} (ih : a :: w' <:+: joinContinuations r → a :: w' <:+: r)
      (hj : joinContinuations (c :: r) = c :: joinContinuations r)
      (h : a :: w' <:+: c :: joinContinuations r) : a :: w' <:+: c :: r := by
    obtain h | h := List.infix_cons_iff.mp h
    · exact (prefix_of_prefix_join hw (hj ▸ h)).isInfix
    · exact (ih h).trans (List.suffix_cons c r).isInfix
  fun_induction joinContinuations s with
  | case1 => exact h
  | case2 r u hu _ ih =>
    rw [List.infix_cons_iff, List.cons_prefix_cons] at h
    obtain ⟨rfl, -⟩ | h := h
    · exact absurd List.mem_cons_self hw
    · have hr : a :: w' <:+: r := (ih h).trans (behindLineFeed?_isSuffix hu).isInfix
      exact hr.trans (List.suffix_cons '%' r).isInfix
  | case3 r hb ih =>
    exact step ih (joinContinuations_percent_none hb) h
  | case4 c r hc ih =>
    exact step ih (joinContinuations_cons hc r) h

end Galley.Concordance
