import Galley.Log.FileStack
import Galley.Proofs.Text.Trim

/-!
# Parentheses in a log

A text whose parentheses are balanced leaves the files that TeX has open as they are
(`feed_of_balanced`), and an opening parenthesis with the name of a file behind it opens that
file (`feed_opening`).
-/

namespace Galley

open Text

/-- Whether the parentheses of a text are balanced from left to right, `depth` of them being open
before it: none is closed that is not open, and none is open at the end. -/
def balanced (depth : Nat) : List Char → Bool
  | [] => depth == 0
  | c :: r =>
    if c = '(' then balanced (depth + 1) r
    else if c = ')' then depth != 0 && balanced (depth - 1) r
    else balanced depth r

/-- A text without parentheses does not matter to what is balanced. -/
theorem balanced_append {s : List Char} (ho : '(' ∉ s) (hc : ')' ∉ s) (depth : Nat)
    (t : List Char) : balanced depth (s ++ t) = balanced depth t := by
  induction s with
  | nil => rfl
  | cons c s ih =>
    rw [List.mem_cons, not_or] at ho hc
    rw [List.cons_append, balanced, if_neg (Ne.symm ho.1), if_neg (Ne.symm hc.1), ih ho.2 hc.2]

theorem balanced_of_notMem {s : List Char} (ho : '(' ∉ s) (hc : ')' ∉ s) :
    balanced 0 s = true := by
  rw [← List.append_nil s, balanced_append ho hc]
  rfl

/-- The name of a file as it stands in a log: an extension of word characters with something in
front of its dot, and neither blanks nor parentheses. -/
structure IsFileName (name : List Char) : Prop where
  exists_extension : ∃ q w, name = q ++ '.' :: w ∧ q ≠ [] ∧ w ≠ [] ∧ ∀ c ∈ w, isWordChar c = true
  not_blank : ∀ c ∈ name, isBlank c = false
  notMem_open : '(' ∉ name
  notMem_close : ')' ∉ name

theorem notMem_of_isWordChar {w : List Char} (h : ∀ c ∈ w, isWordChar c = true) : '.' ∉ w :=
  fun hd => absurd (h '.' hd) (by decide)

private theorem isFileName_iff {name : List Char} : IsFileName name ↔
    (∃ cut ∈ cutLast? '.' name, cut.1 ≠ [] ∧ cut.2 ≠ [] ∧ ∀ c ∈ cut.2, isWordChar c = true) ∧
      (∀ c ∈ name, isBlank c = false) ∧ '(' ∉ name ∧ ')' ∉ name := by
  constructor
  · rintro ⟨⟨q, w, hname, hq, hw, hc⟩, hblank, ho, hp⟩
    have hcut := cutLast?_eq_some_iff.mpr ⟨hname, notMem_of_isWordChar hc⟩
    exact ⟨⟨(q, w), hcut, hq, hw, hc⟩, hblank, ho, hp⟩
  · rintro ⟨⟨cut, hcut, hq, hw, hc⟩, hblank, ho, hp⟩
    exact ⟨⟨cut.1, cut.2, (cutLast?_eq_some_iff.mp hcut).1, hq, hw, hc⟩, hblank, ho, hp⟩

instance (name : List Char) : Decidable (IsFileName name) := decidable_of_iff _ isFileName_iff.symm

namespace FileStack

/-- What a text does to the marks: it takes `closed` of them off and puts others on. In front of
any other text it is balanced just if so many are to be closed before it and this other text closes
the rest and the new ones. -/
theorem exists_marksAfter_eq (baseDir : Path) (s : List Char) :
    ∃ opened closed, (∀ marks, marksAfter baseDir marks s = opened ++ marks.drop closed) ∧
      ∀ depth t, balanced depth (s ++ t) = true ↔
        closed ≤ depth ∧ balanced (depth - closed + opened.length) t = true := by
  induction s with
  | nil => exact ⟨[], 0, fun marks => rfl, fun depth t => by simp⟩
  | cons c s ih =>
    obtain ⟨opened, closed, hmarks, hb⟩ := ih
    simp only [marksAfter, List.cons_append, balanced, hmarks]
    by_cases ho : c = '('
    · simp only [if_pos ho, hb]
      cases closed with
      | zero =>
        refine ⟨opened ++ [_], 0, fun marks => List.append_cons opened _ marks, ?_⟩
        intro depth t
        have hlen : depth + 1 - 0 + opened.length = depth - 0 + (opened.length + 1) := by omega
        simp only [List.length_append, List.length_singleton, hlen, Nat.zero_le]
      | succ closed =>
        refine ⟨opened, closed, fun marks => rfl, fun depth t => ?_⟩
        rw [Nat.add_sub_add_right, Nat.add_le_add_iff_right]
    · simp only [if_neg ho]
      by_cases hc : c = ')'
      · simp only [if_pos hc, List.drop_tail, Bool.and_eq_true, bne_iff_ne, hb]
        refine ⟨opened, closed + 1, fun marks => rfl, fun depth t => ?_⟩
        rw [Nat.sub_sub, Nat.add_comm 1 closed, ← and_assoc]
        refine and_congr_left fun _ => ?_
        omega
      · simp only [if_neg hc, hb]
        exact ⟨opened, closed, fun marks => rfl, fun depth t => Iff.rfl⟩

/-- In front of what closes `depth'` of its marks, a text that is balanced together with it closes
`depth` of the marks before it. -/
theorem exists_drop_marksAfter {depth : Nat} {s t : List Char}
    (h : balanced depth (s ++ t) = true) (baseDir : Path) (marks : List (Option Path)) :
    ∃ depth', balanced depth' t = true ∧
      (marksAfter baseDir marks s).drop depth' = marks.drop depth := by
  obtain ⟨opened, closed, hmarks, hb⟩ := exists_marksAfter_eq baseDir s
  obtain ⟨hle, ht⟩ := (hb depth t).mp h
  refine ⟨_, ht, ?_⟩
  rw [hmarks, Nat.add_comm, List.drop_length_add_append, List.drop_drop, Nat.add_sub_cancel' hle]

theorem marksAfter_of_balanced {baseDir : Path} {marks : List (Option Path)} {depth : Nat}
    {s : List Char} (h : balanced depth s = true) :
    marksAfter baseDir marks s = marks.drop depth := by
  rw [← List.append_nil s] at h
  obtain ⟨depth', hnil, hdrop⟩ := exists_drop_marksAfter h baseDir marks
  obtain rfl : depth' = 0 := by simpa [balanced] using hnil
  exact hdrop

/-- A balanced text opens and closes nothing for good. -/
theorem feed_of_balanced {files : FileStack} {s : List Char} (h : balanced 0 s = true) :
    files.feed s = files := by
  rw [feed, marksAfter_of_balanced h, List.drop_zero]

private theorem cutExtension?_eq_none {s : List Char} (h : '.' ∉ s) : cutExtension? s = none := by
  induction s with
  | nil => rfl
  | cons c s ih =>
    rw [List.mem_cons, not_or] at h
    rw [cutExtension?, ih h.2]
    exact if_neg fun hc => h.1 hc.1.symm

private theorem cutExtension?_append {q w : List Char} (hw : w ≠ [])
    (hc : ∀ c ∈ w, isWordChar c = true) :
    cutExtension? (q ++ '.' :: w) = some (q ++ '.' :: w) := by
  induction q with
  | nil =>
    rw [List.nil_append, cutExtension?, cutExtension?_eq_none (notMem_of_isWordChar hc),
      takeWhile_eq_self hc]
    exact if_pos ⟨rfl, hw⟩
  | cons c q ih => rw [List.cons_append, cutExtension?, ih]

private theorem fileName?_eq_some {name : List Char} (h : IsFileName name) :
    fileName? name = some name := by
  obtain ⟨⟨q, w, hname, hq, hw, hc⟩, hblank, hopen, hclose⟩ := h
  have htake : (name.takeWhile fun c => c ≠ '(' && c ≠ ')' && !isBlank c) = name := by
    refine takeWhile_eq_self fun c hm => ?_
    have ho : c ≠ '(' := fun he => hopen (he ▸ hm)
    have hcl : c ≠ ')' := fun he => hclose (he ▸ hm)
    simp [ho, hcl, hblank c hm]
  obtain ⟨c, q, rfl⟩ := List.exists_cons_of_ne_nil hq
  rw [fileName?, htake, hname, List.cons_append]
  simp only [cutExtension?_append hw hc, Option.map_some]

/-- An opening parenthesis in front of the name of a file opens the file. -/
theorem feed_opening {files : FileStack} {name : List Char} (h : IsFileName name) :
    files.feed ('(' :: name) = { files with
      marks := some (files.baseDir.resolveIn (String.ofList name)) :: files.marks } := by
  rw [feed, marksAfter, if_pos rfl, fileName?_eq_some h,
    marksAfter_of_balanced (balanced_of_notMem h.notMem_open h.notMem_close)]
  rfl

theorem feed_closing {files : FileStack} :
    files.feed [')'] = { files with marks := files.marks.tail } := rfl

end FileStack

end Galley
