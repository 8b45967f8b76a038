import Galley.Proofs.Log.FileStack
import Mathlib.Data.List.TakeWhile
import Mathlib.Order.Bounds.Basic

/-!
# Matching parentheses

A closing parenthesis closes the nearest opening one in front of it that is still open (`Closes`),
across the lines of a log. `current_feed_lines` is the main result: the file that is open is told
by the last parenthesis that is never closed and has the name of a file behind it on its line.

What carries the induction is that the stack of a log consists of the parentheses that are open
behind the characters read so far, last first (`openings`), each with the file that it opens.
-/

namespace Galley

open Text

/-! ### Parentheses that are closed -/

/-- Whether the closing parenthesis at `j` closes the opening one at `i`: of those in front of `j`
that no other one in front of `j` closes, this is the last. -/
def Closes (text : List Char) (j i : Nat) : Prop :=
  text[j]? = some ')' ∧
    IsGreatest {k | k < j ∧ text[k]? = some '(' ∧ ∀ l < j, ¬ Closes text l k} i
termination_by j

/-- Whether there is an opening parenthesis at `i` that no closing one closes. -/
def IsUnclosed (text : List Char) (i : Nat) : Prop :=
  text[i]? = some '(' ∧ ∀ j, ¬ Closes text j i

/-- Whether there is an opening parenthesis at `i` that is still open in front of `j`. -/
def IsOpenAt (text : List Char) (j i : Nat) : Prop :=
  i < j ∧ text[i]? = some '(' ∧ ∀ l < j, ¬ Closes text l i

variable {text : List Char} {i j : Nat}

private theorem closes_iff :
    Closes text j i ↔ text[j]? = some ')' ∧ IsGreatest {k | IsOpenAt text j k} i := by
  rw [Closes]
  rfl

private theorem isUnclosed_iff : IsUnclosed text i ↔ IsOpenAt text text.length i := by
  constructor
  · rintro ⟨hi, hno⟩
    obtain ⟨hlt, -⟩ := List.getElem?_eq_some_iff.mp hi
    exact ⟨hlt, hi, fun j _ => hno j⟩
  · rintro ⟨-, hi, hno⟩
    refine ⟨hi, fun j hj => ?_⟩
    obtain ⟨hlt, -⟩ := List.getElem?_eq_some_iff.mp (closes_iff.mp hj).1
    exact hno j hlt hj

private theorem isOpenAt_succ_iff :
    IsOpenAt text (j + 1) i ↔
      text[i]? = some '(' ∧ i = j ∨ IsOpenAt text j i ∧ ¬ Closes text j i := by
  constructor
  · rintro ⟨hlt, hi, hno⟩
    obtain hlt | rfl := Nat.lt_succ_iff_lt_or_eq.mp hlt
    · exact .inr ⟨⟨hlt, hi, fun l hl => hno l (by omega)⟩, hno j (by omega)⟩
    · exact .inl ⟨hi, rfl⟩
  · rintro (⟨hi, rfl⟩ | ⟨⟨hlt, hi, hno⟩, hj⟩)
    · refine ⟨by omega, hi, fun l hl hc => ?_⟩
      obtain ⟨hlt, -⟩ := (closes_iff.mp hc).2.1
      omega
    · refine ⟨by omega, hi, fun l hl => ?_⟩
      obtain hl | rfl := Nat.lt_succ_iff_lt_or_eq.mp hl
      · exact hno l hl
      · exact hj

/-- An opening parenthesis is open behind itself. -/
private theorem isOpenAt_succ_of_opening (h : text[j]? = some '(') :
    IsOpenAt text (j + 1) i ↔ i = j ∨ IsOpenAt text j i := by
  have hno : ¬ Closes text j i := by simp [closes_iff, h]
  rw [isOpenAt_succ_iff]
  simp only [hno, not_false_eq_true, and_true]
  exact or_congr_left ⟨And.right, fun hi => ⟨hi ▸ h, hi⟩⟩

/-- Behind any other character, what was open is open unless the character closes it. -/
private theorem isOpenAt_succ_of_not_opening (h : text[j]? ≠ some '(') :
    IsOpenAt text (j + 1) i ↔ IsOpenAt text j i ∧ ¬ Closes text j i := by
  rw [isOpenAt_succ_iff]
  refine or_iff_right ?_
  rintro ⟨hi, rfl⟩
  exact h hi

/-! ### The parentheses that are open -/

/-- The opening parentheses that are still open behind the first characters, last first. -/
def openings (text : List Char) : Nat → List Nat
  | 0 => []
  | k + 1 =>
    if text[k]? = some '(' then k :: openings text k
    else if text[k]? = some ')' then (openings text k).tail
    else openings text k

/-- The first of a list that decreases is taken off just by taking off the greatest. -/
private theorem mem_tail_iff {l : List Nat} (h : l.Pairwise (· > ·)) (i : Nat) :
    i ∈ l.tail ↔ i ∈ l ∧ ¬ IsGreatest {k | k ∈ l} i := by
  cases l with
  | nil => simp
  | cons a rest =>
    rw [List.pairwise_cons] at h
    have hlast : IsGreatest {k | k ∈ a :: rest} a := by
      refine ⟨List.mem_cons_self, fun k hk => ?_⟩
      obtain rfl | hk := List.mem_cons.mp hk
      · exact le_rfl
      · exact (h.1 k hk).le
    rw [List.tail_cons, List.mem_cons]
    constructor
    · intro hi
      exact ⟨.inr hi, fun hg => (h.1 i hi).ne (hg.unique hlast)⟩
    · rintro ⟨rfl | hi, hg⟩
      · exact absurd hlast hg
      · exact hi

private theorem openings_spec (text : List Char) (k : Nat) :
    (openings text k).Pairwise (· > ·) ∧ ∀ i, i ∈ openings text k ↔ IsOpenAt text k i := by
  induction k with
  | zero => exact ⟨.nil, fun i => by simp [openings, IsOpenAt]⟩
  | succ k ih =>
    obtain ⟨hsorted, hmem⟩ := ih
    rw [openings]
    by_cases ho : text[k]? = some '('
    · rw [if_pos ho]
      refine ⟨hsorted.cons fun i hi => ((hmem i).mp hi).1, fun i => ?_⟩
      rw [List.mem_cons, hmem, isOpenAt_succ_of_opening ho]
    · rw [if_neg ho]
      by_cases hc : text[k]? = some ')'
      · rw [if_pos hc]
        refine ⟨hsorted.tail, fun i => ?_⟩
        simp only [isOpenAt_succ_of_not_opening ho, mem_tail_iff hsorted, closes_iff, hc, hmem,
          true_and]
      · rw [if_neg hc]
        refine ⟨hsorted, fun i => ?_⟩
        simp only [isOpenAt_succ_of_not_opening ho, closes_iff, hc, hmem, false_and,
          not_false_eq_true, and_true]

/-- Nothing is open behind a text just if every parenthesis in it is closed. -/
theorem openings_eq_nil_iff : openings text text.length = [] ↔ ∀ i, ¬ IsUnclosed text i := by
  simp only [List.eq_nil_iff_forall_not_mem, (openings_spec _ _).2, isUnclosed_iff]

/-! ### Names behind parentheses -/

/-- Whether a text ends in a dot with word characters behind it. -/
def HasExtension (s : List Char) : Prop :=
  ∃ q w, s = q ++ '.' :: w ∧ w ≠ [] ∧ ∀ c ∈ w, isWordChar c = true

/-- Whether `name` is the name of a file that a text starts with, and the longest such name. -/
structure IsLeadingName (s name : List Char) : Prop where
  isFileName : IsFileName name
  leads : name <+: s
  longest : ∀ other, IsFileName other → other <+: s → other.length ≤ name.length

private theorem hasExtension_cons {c : Char} {s : List Char} :
    HasExtension (c :: s) ↔
      (c = '.' ∧ s ≠ [] ∧ ∀ d ∈ s, isWordChar d = true) ∨ HasExtension s := by
  constructor
  · rintro ⟨q, w, heq, hw, hall⟩
    cases q with
    | nil =>
      obtain ⟨rfl, rfl⟩ := List.cons.inj heq
      exact .inl ⟨rfl, hw, hall⟩
    | cons d q => exact .inr ⟨q, w, (List.cons.inj heq).2, hw, hall⟩
  · rintro (⟨rfl, hs, hall⟩ | ⟨q, w, rfl, hw, hall⟩)
    · exact ⟨[], s, rfl, hs, hall⟩
    · exact ⟨c :: q, w, rfl, hw, hall⟩

private theorem isFileName_cons {c : Char} {s : List Char} :
    IsFileName (c :: s) ↔ HasExtension s ∧
      ∀ d ∈ c :: s, (d ≠ '(' && d ≠ ')' && !isBlank d) = true := by
  constructor
  · rintro ⟨⟨q, w, heq, hq, hw, hall⟩, hblank, ho, hc⟩
    obtain ⟨d, q, rfl⟩ := List.exists_cons_of_ne_nil hq
    refine ⟨⟨q, w, (List.cons.inj heq).2, hw, hall⟩, fun e he => ?_⟩
    have h1 : e ≠ '(' := fun h => ho (h ▸ he)
    have h2 : e ≠ ')' := fun h => hc (h ▸ he)
    simp [h1, h2, hblank e he]
  · rintro ⟨⟨q, w, rfl, hw, hall⟩, hrun⟩
    refine ⟨⟨c :: q, w, rfl, List.cons_ne_nil c q, hw, hall⟩, fun d hd => ?_, fun ho => ?_,
      fun hc => ?_⟩
    · simpa using (Bool.and_eq_true_iff.mp (hrun d hd)).2
    · exact absurd (hrun '(' ho) (by decide)
    · exact absurd (hrun ')' hc) (by decide)

private theorem not_isFileName_nil : ¬ IsFileName [] := by
  rintro ⟨⟨q, w, heq, -⟩, -⟩
  simp at heq

namespace FileStack

private theorem not_leads_of_cutExtension?_eq_none {s t : List Char} (h : cutExtension? s = none)
    (ht : HasExtension t) : ¬ t <+: s := by
  induction s generalizing t with
  | nil =>
    obtain ⟨q, w, rfl, -⟩ := ht
    simp
  | cons c s ih =>
    rw [cutExtension?] at h
    split at h
    · cases h
    · next hs =>
      intro hl
      cases t with
      | nil =>
        obtain ⟨q, w, heq, -⟩ := ht
        simp at heq
      | cons d t =>
        obtain ⟨rfl, htail⟩ := List.cons_prefix_cons.mp hl
        obtain ⟨hd, hne, hall⟩ | ht := hasExtension_cons.mp ht
        · obtain ⟨r, rfl⟩ := htail
          refine absurd h ?_
          rw [List.takeWhile_append_of_pos hall]
          simp [hd, hne]
        · exact ih hs ht htail

/-- The beginning that is cut off is the longest one with an extension. -/
private theorem cutExtension?_eq_some {s t : List Char} (h : cutExtension? s = some t) :
    HasExtension t ∧ t <+: s ∧ ∀ u, HasExtension u → u <+: s → u.length ≤ t.length := by
  induction s generalizing t with
  | nil => cases h
  | cons c s ih =>
    rw [cutExtension?] at h
    split at h
    · next v hv =>
      cases h
      obtain ⟨hext, hl, hlong⟩ := ih hv
      refine ⟨hasExtension_cons.mpr (.inr hext), List.cons_prefix_cons.mpr ⟨rfl, hl⟩, ?_⟩
      intro u hu hus
      cases u with
      | nil => simp
      | cons d u =>
        obtain ⟨rfl, htail⟩ := List.cons_prefix_cons.mp hus
        obtain ⟨-, -, hall⟩ | hu := hasExtension_cons.mp hu
        · -- without a dot in it, it ends in front of the later extension
          have hvu : ¬ v <+: u := by
            rintro ⟨r, rfl⟩
            obtain ⟨q, w, rfl, -⟩ := hext
            exact absurd (hall '.' (by simp)) (by decide)
          obtain hle | hle := Nat.le_total u.length v.length
          · simpa using hle
          · exact absurd (List.prefix_of_prefix_length_le hl htail hle) hvu
        · simpa using hlong u hu htail
    · next hnone =>
      split at h
      · next hdot =>
        cases h
        obtain ⟨rfl, hne⟩ := hdot
        refine ⟨⟨[], _, rfl, hne, fun c hc => List.mem_takeWhile_imp hc⟩,
          List.cons_prefix_cons.mpr ⟨rfl, List.takeWhile_prefix _⟩, ?_⟩
        intro u hu hus
        cases u with
        | nil => simp
        | cons d u =>
          obtain ⟨rfl, r, rfl⟩ := List.cons_prefix_cons.mp hus
          obtain ⟨-, -, hall⟩ | hu := hasExtension_cons.mp hu
          · rw [List.takeWhile_append_of_pos hall]
            simp
          · exact absurd (List.prefix_append u r) (not_leads_of_cutExtension?_eq_none hnone hu)
      · cases h

/-- What may be in the name of a file in front of `s` may be in front of its first break. -/
private theorem prefix_takeWhile {p : Char → Bool} {a s : List Char} (h : ∀ c ∈ a, p c = true) :
    a <+: s.takeWhile p ↔ a <+: s := by
  refine ⟨fun ha => ha.trans (List.takeWhile_prefix p), ?_⟩
  rintro ⟨r, rfl⟩
  rw [List.takeWhile_append_of_pos h]
  exact List.prefix_append a _

/-- The name behind a parenthesis is the longest one that stands there. -/
private theorem isLeadingName_of_fileName? {s name : List Char} (h : fileName? s = some name) :
    IsLeadingName s name := by
  rw [fileName?] at h
  split at h
  · cases h
  · next c r hrun =>
    obtain ⟨t, ht, rfl⟩ := Option.map_eq_some_iff.mp h
    obtain ⟨hext, hl, hlong⟩ := cutExtension?_eq_some ht
    have hcl : c :: t <+: s.takeWhile fun c => c ≠ '(' && c ≠ ')' && !isBlank c := by
      rw [hrun]
      exact List.cons_prefix_cons.mpr ⟨rfl, hl⟩
    have hall : ∀ d ∈ c :: t, (d ≠ '(' && d ≠ ')' && !isBlank d) = true :=
      fun d hd => List.mem_takeWhile_imp (p := fun c => c ≠ '(' && c ≠ ')' && !isBlank c)
        (hcl.subset hd)
    refine ⟨isFileName_cons.mpr ⟨hext, hall⟩, hcl.trans (List.takeWhile_prefix _),
      fun other ho hos => ?_⟩
    cases other with
    | nil => simp
    | cons d u =>
      obtain ⟨hu, hall⟩ := isFileName_cons.mp ho
      rw [← prefix_takeWhile hall, hrun] at hos
      simpa using hlong u hu (List.cons_prefix_cons.mp hos).2

private theorem not_leads_of_fileName?_eq_none {s name : List Char} (h : fileName? s = none)
    (hn : IsFileName name) : ¬ name <+: s := by
  intro hl
  cases name with
  | nil => exact not_isFileName_nil hn
  | cons d u =>
    obtain ⟨hu, hall⟩ := isFileName_cons.mp hn
    rw [← prefix_takeWhile hall] at hl
    rw [fileName?] at h
    split at h
    · next hrun =>
      rw [hrun] at hl
      simp at hl
    · next c r hrun =>
      rw [hrun] at hl
      exact not_leads_of_cutExtension?_eq_none (Option.map_eq_none_iff.mp h) hu
        (List.cons_prefix_cons.mp hl).2

/-- A name is found behind a parenthesis just if it is the longest one there. -/
theorem fileName?_eq_some_iff {s name : List Char} :
    fileName? s = some name ↔ IsLeadingName s name := by
  refine ⟨isLeadingName_of_fileName?, fun h => ?_⟩
  cases hf : fileName? s with
  | none => exact absurd h.leads (not_leads_of_fileName?_eq_none hf h.isFileName)
  | some other =>
    have ho := isLeadingName_of_fileName? hf
    have hlen : other.length = name.length :=
      Nat.le_antisymm (h.longest other ho.isFileName ho.leads)
        (ho.longest name h.isFileName h.leads)
    rw [(List.prefix_of_prefix_length_le ho.leads h.leads hlen.le).eq_of_length hlen]

end FileStack

/-! ### The marks of a log -/

/-- What stands behind a position of the joined lines on the same line. -/
def restOfLine : List (List Char) → Nat → List Char
  | [], _ => []
  | line :: rest, i =>
    if i < line.length then line.drop (i + 1) else restOfLine rest (i - line.length)

private theorem restOfLine_append (front back : List (List Char)) (before s : List Char)
    (c : Char) :
    restOfLine (front ++ (before ++ c :: s) :: back) (front.flatten.length + before.length) =
      s := by
  induction front with
  | nil =>
    have hdrop : (before ++ c :: s).drop (before.length + 1) = s := by
      rw [← List.drop_drop, List.drop_left, List.drop_one, List.tail_cons]
    simp [restOfLine, hdrop]
  | cons line front ih =>
    have hi : (line :: front).flatten.length + before.length =
        line.length + (front.flatten.length + before.length) := by simp [Nat.add_assoc]
    rw [hi, List.cons_append, restOfLine, if_neg (by omega), Nat.add_sub_cancel_left, ih]

namespace FileStack

/-- The mark of a parenthesis in the joined lines: the file that it opens, if it does. -/
def markAt (baseDir : Path) (ls : List (List Char)) (i : Nat) : Option Path :=
  (fileName? (restOfLine ls i)).map fun n => baseDir.resolveIn (String.ofList n)

variable {baseDir : Path} {ls : List (List Char)}

/-- The rest of a line takes the marks on to the end of the line. -/
private theorem marksAfter_openings (baseDir : Path) {front back : List (List Char)}
    {before s : List Char} (h : ls = front ++ (before ++ s) :: back) :
    marksAfter baseDir ((openings ls.flatten (front.flatten.length + before.length)).map
        (markAt baseDir ls)) s =
      (openings ls.flatten (front.flatten.length + before.length + s.length)).map
        (markAt baseDir ls) := by
  induction s generalizing before with
  | nil => rfl
  | cons c s ih =>
    have hmove : ls = front ++ (before ++ [c] ++ s) :: back := by simpa using h
    have hnext := ih hmove
    have hchar : ls.flatten[front.flatten.length + before.length]? = some c := by
      rw [h]
      simp
    have hmark : markAt baseDir ls (front.flatten.length + before.length) =
        (fileName? s).map fun n => baseDir.resolveIn (String.ofList n) := by
      rw [markAt, h, restOfLine_append]
    rw [List.length_append, List.length_singleton, ← Nat.add_assoc, openings, hchar] at hnext
    rw [marksAfter, List.length_cons, Nat.add_comm s.length 1, ← Nat.add_assoc, ← hnext]
    by_cases ho : c = '('
    · rw [if_pos ho, if_pos (congrArg some ho), List.map_cons, hmark]
    · rw [if_neg ho, if_neg (fun hs => ho (Option.some.inj hs))]
      by_cases hc : c = ')'
      · rw [if_pos hc, if_pos (congrArg some hc), List.map_tail]
      · rw [if_neg hc, if_neg (fun hs => hc (Option.some.inj hs))]

/-- The marks of a log are those of its open parentheses. -/
theorem feed_lines (baseDir mainFile : Path) (ls : List (List Char)) :
    ls.foldl feed { baseDir, mainFile } =
      ⟨baseDir, mainFile, (openings ls.flatten ls.flatten.length).map (markAt baseDir ls)⟩ := by
  suffices hfrom : ∀ front back, ls = front ++ back →
      back.foldl feed ⟨baseDir, mainFile,
        (openings ls.flatten front.flatten.length).map (markAt baseDir ls)⟩ =
      ⟨baseDir, mainFile, (openings ls.flatten ls.flatten.length).map (markAt baseDir ls)⟩ from
    hfrom [] ls rfl
  intro front back h
  induction back generalizing front with
  | nil =>
    rw [List.append_nil] at h
    rw [h]
    rfl
  | cons line back ih =>
    have hsplit : ls = front ++ ([] ++ line) :: back := h
    have hline := marksAfter_openings baseDir hsplit
    rw [List.length_nil, Nat.add_zero] at hline
    rw [List.foldl_cons, feed, hline, ← ih (front ++ [line]) (by simpa using h)]
    simp

/-- The file that is open behind the lines. -/
theorem current_lines (baseDir mainFile : Path) (ls : List (List Char)) :
    (ls.foldl feed { baseDir, mainFile }).current =
      ((openings ls.flatten ls.flatten.length).findSome? (markAt baseDir ls)).getD mainFile := by
  rw [feed_lines, current, List.findSome?_map]
  rfl

/-- Lines that are balanced together take off the marks that they close. -/
private theorem foldl_feed_of_balanced {more : List (List Char)} {depth : Nat}
    (h : balanced depth more.flatten = true) (files : FileStack) :
    more.foldl feed files = { files with marks := files.marks.drop depth } := by
  induction more generalizing depth files with
  | nil =>
    rw [List.flatten_nil, balanced, beq_iff_eq] at h
    rw [h]
    rfl
  | cons line more ih =>
    obtain ⟨depth', hmore, hdrop⟩ := exists_drop_marksAfter h files.baseDir files.marks
    rw [List.foldl_cons, ih hmore, feed]
    exact congrArg (FileStack.mk files.baseDir files.mainFile) hdrop

end FileStack

/-! ### The main result -/

/-- Whether the parenthesis at `i` is never closed and opens the file `name`. -/
def LeavesOpen (ls : List (List Char)) (i : Nat) (name : List Char) : Prop :=
  IsUnclosed ls.flatten i ∧ IsLeadingName (restOfLine ls i) name

/-- What the first hit in a list that decreases is. -/
private theorem findSome?_eq_some_iff_of_pairwise {α : Type} {l : List Nat} (h : l.Pairwise (· > ·))
    {f : Nat → Option α} {b : α} :
    l.findSome? f = some b ↔
      ∃ i ∈ l, f i = some b ∧ ∀ j ∈ l, (f j).isSome = true → j ≤ i := by
  rw [List.findSome?_eq_some_iff]
  constructor
  · rintro ⟨l₁, i, l₂, rfl, hi, hnone⟩
    refine ⟨i, by simp, hi, fun j hj hsome => ?_⟩
    rw [List.pairwise_append, List.pairwise_cons] at h
    obtain hj | hj := List.mem_append.mp hj
    · rw [hnone j hj] at hsome
      cases hsome
    · obtain rfl | hj := List.mem_cons.mp hj
      · exact le_rfl
      · exact (h.2.1.1 j hj).le
  · rintro ⟨i, hmem, hi, hlast⟩
    obtain ⟨l₁, l₂, rfl⟩ := List.append_of_mem hmem
    refine ⟨l₁, i, l₂, rfl, hi, fun j hj => ?_⟩
    rw [List.pairwise_append] at h
    have hlt := h.2.2 j hj i List.mem_cons_self
    rw [← Option.not_isSome_iff_eq_none]
    intro hsome
    have hle := hlast j (List.mem_append_left _ hj) hsome
    omega

private theorem leavesOpen_iff {ls : List (List Char)} {i : Nat} {name : List Char} :
    LeavesOpen ls i name ↔ i ∈ openings ls.flatten ls.flatten.length ∧
      FileStack.fileName? (restOfLine ls i) = some name := by
  rw [LeavesOpen, isUnclosed_iff, (openings_spec _ _).2, FileStack.fileName?_eq_some_iff]

/-- A parenthesis opens one file at most. -/
theorem LeavesOpen.unique {ls : List (List Char)} {i : Nat} {name other : List Char}
    (h : LeavesOpen ls i name) (h' : LeavesOpen ls i other) : name = other :=
  Option.some.inj ((leavesOpen_iff.mp h).2.symm.trans (leavesOpen_iff.mp h').2)

/-- Whether a file is the one behind the last of the parentheses that open a file and are never
closed, or the main file if there is none. -/
def IsLastOpen (baseDir mainFile : Path) (ls : List (List Char)) (file : Path) : Prop :=
  (∃ i name, LeavesOpen ls i name ∧ (∀ j other, LeavesOpen ls j other → j ≤ i) ∧
    file = baseDir.resolveIn (String.ofList name)) ∨
  (∀ i name, ¬ LeavesOpen ls i name) ∧ file = mainFile

theorem IsLastOpen.unique {baseDir mainFile : Path} {ls : List (List Char)} {file file' : Path}
    (h : IsLastOpen baseDir mainFile ls file) (h' : IsLastOpen baseDir mainFile ls file') :
    file = file' := by
  obtain ⟨i, name, hopen, hlast, rfl⟩ | ⟨hno, rfl⟩ := h
  · obtain ⟨j, other, hopen', hlast', rfl⟩ | ⟨hno, -⟩ := h'
    · obtain rfl : i = j := Nat.le_antisymm (hlast' i name hopen) (hlast j other hopen')
      rw [hopen.unique hopen']
    · exact absurd hopen (hno i name)
  · obtain ⟨j, other, hopen, -⟩ | ⟨-, rfl⟩ := h'
    · exact absurd hopen (hno j other)
    · rfl

/-- The file that is open behind the lines is the one of the last parenthesis. -/
private theorem isLastOpen_current (baseDir mainFile : Path) (ls : List (List Char)) :
    IsLastOpen baseDir mainFile ls (ls.foldl FileStack.feed { baseDir, mainFile }).current := by
  have hsorted := (openings_spec ls.flatten ls.flatten.length).1
  rw [FileStack.current_lines]
  simp only [IsLastOpen, leavesOpen_iff]
  cases hfind : (openings ls.flatten ls.flatten.length).findSome?
      (FileStack.markAt baseDir ls) with
  | none =>
    refine .inr ⟨?_, rfl⟩
    rintro i name ⟨hi, hn⟩
    have hmark := List.findSome?_eq_none_iff.mp hfind i hi
    rw [FileStack.markAt, hn] at hmark
    cases hmark
  | some path =>
    obtain ⟨i, hi, hmark, hlast⟩ := (findSome?_eq_some_iff_of_pairwise hsorted).mp hfind
    obtain ⟨name, hname, rfl⟩ := Option.map_eq_some_iff.mp hmark
    refine .inl ⟨i, name, ⟨hi, hname⟩, ?_, rfl⟩
    rintro j other ⟨hj, ho⟩
    exact hlast j hj (by rw [FileStack.markAt, ho]; rfl)

/-- **The open file is told by the parentheses**: it is the one behind the last of those that open
a file and are never closed, and the main file if there is none. So lines that are balanced
together change nothing. -/
theorem current_feed_lines (baseDir mainFile : Path) (ls : List (List Char)) :
    let files := ls.foldl FileStack.feed { baseDir, mainFile }
    (∀ file, files.current = file ↔ IsLastOpen baseDir mainFile ls file) ∧
      ∀ more : List (List Char), balanced 0 more.flatten = true →
        (more.foldl FileStack.feed files).current = files.current := by
  intro files
  have hlast := isLastOpen_current baseDir mainFile ls
  refine ⟨fun file => ⟨?_, hlast.unique⟩, fun more h => ?_⟩
  · rintro rfl
    exact hlast
  · rw [FileStack.foldl_feed_of_balanced h]
    rfl

/-- A file that is opened and closed on two lines does not matter to the file around it. -/
theorem current_feed_lines_nested :
    let files := ["(./main.tex (./a.tex (see".toList, "b)) (./chapter.tex".toList].foldl
      FileStack.feed { baseDir := Path.ofString "/d", mainFile := Path.ofString "/d/r.tex" }
    balanced 0 ["(./a.tex".toList, "(see b) )".toList].flatten = true ∧
      (["(./a.tex".toList, "(see b) )".toList].foldl FileStack.feed files).current =
        Path.ofString "/d/chapter.tex" :=
  ⟨by decide, ((current_feed_lines _ _ _).2 _ (by decide)).trans (by decide +kernel)⟩

end Galley
