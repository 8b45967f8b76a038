import Galley.Proofs.Concordance.RoundTrip

/-!
# The line map of an entry

The numbers of an entry are its first source line and, behind it, runs of lines, each with a count
and a step. `IsLineMap` is the closed form of the line map: which lines are covered, and which
source line each of them has. `isLineMap_of_entry` is the main result, for all whole numbers: counts
that are not positive stand for no line, and offsets, steps and source lines may be negative. A
count without a step is refused.
-/

namespace Galley.Concordance

open Text

/-! ### Covered lines -/

section Covered

variable {c : Concordance}

theorem covers_iff {line : Int} :
    c.covers line = true ↔ c.isEmpty = false ∧ ∃ k : Nat, k < c.lines.length ∧
      line = c.offset + 1 + k := by
  simp only [covers, Bool.and_eq_true, Bool.not_eq_true', decide_eq_true_eq, and_assoc]
  refine and_congr_right fun _ => ⟨?_, ?_⟩
  · rintro ⟨h0, hl⟩
    exact ⟨(line - 1 - c.offset).toNat, by omega, by omega⟩
  · rintro ⟨k, hk, rfl⟩
    omega

theorem sourceLine_eq {k : Nat} (he : c.isEmpty = false) (hk : k < c.lines.length) :
    c.lines[k]? = some (c.sourceLine (c.offset + 1 + k)) := by
  have hindex : (c.offset + 1 + k - 1 - c.offset).toNat = k := by omega
  rw [sourceLine, if_pos (covers_iff.mpr ⟨he, k, hk, rfl⟩), hindex, List.getD_eq_getElem?_getD,
    List.getElem?_eq_getElem hk, Option.getD_some]

end Covered

/-! ### Runs in closed form -/

/-- A number of lines, each `step` further on in the source than the one before. -/
structure Run where
  count : Int
  step : Int
  deriving DecidableEq, Repr

/-- The numbers that an entry has for a run. -/
def Run.values (r : Run) : List Int := [r.count, r.step]

/-- How many lines runs stand for. -/
def lineCount (runs : List Run) : Nat := (runs.map fun r => r.count.toNat).sum

/-- How far runs lead in the source. -/
def advance (runs : List Run) : Int := (runs.map fun r => (r.count.toNat : Int) * r.step).sum

/-- The source lines of runs behind a line. -/
def runSourceLines (line : Int) : List Run → List Int
  | [] => []
  | r :: runs => ((List.range r.count.toNat).map fun (k : Nat) => line + (k + 1) * r.step) ++
      runSourceLines (line + r.count.toNat * r.step) runs

private theorem runLines?_values (line : Int) (runs : List Run) :
    runLines? line (runs.flatMap Run.values) = some (runSourceLines line runs) := by
  induction runs generalizing line with
  | nil => rfl
  | cons r runs ih =>
    rw [List.flatMap_cons, Run.values, List.cons_append, List.cons_append, List.nil_append,
      runLines?, ih]
    rfl

@[simp]
theorem length_runSourceLines (line : Int) (runs : List Run) :
    (runSourceLines line runs).length = lineCount runs := by
  induction runs generalizing line with
  | nil => rfl
  | cons r runs ih => simp [runSourceLines, lineCount, ih]

private theorem runSourceLines_append (line : Int) (before behind : List Run) :
    runSourceLines line (before ++ behind) =
      runSourceLines line before ++ runSourceLines (line + advance before) behind := by
  induction before generalizing line with
  | nil => simp [runSourceLines, advance]
  | cons r before ih =>
    have hline : line + r.count.toNat * r.step + advance before =
        line + advance (r :: before) := by
      rw [advance, advance, List.map_cons, List.sum_cons, Int.add_assoc]
    rw [List.cons_append, runSourceLines, ih, hline, runSourceLines, List.append_assoc]

/-- The source line of each line of a run. -/
theorem getElem?_runSourceLines (line : Int) (before : List Run) (r : Run) (behind : List Run)
    {k : Nat} (hk : k < r.count.toNat) :
    (runSourceLines line (before ++ r :: behind))[lineCount before + k]? =
      some (line + advance before + (k + 1) * r.step) := by
  have hrun : k < ((List.range r.count.toNat).map fun (k : Nat) =>
      line + advance before + (k + 1) * r.step).length := by simpa using hk
  rw [runSourceLines_append, List.getElem?_append_right (by simp), length_runSourceLines,
    Nat.add_sub_cancel_left, runSourceLines, List.getElem?_append_left hrun, List.getElem?_map,
    List.getElem?_range hk]
  rfl

/-- Where the counts and steps do not pair up there are no source lines. -/
private theorem runLines?_eq_none {line : Int} :
    {values : List Int} → values.length % 2 = 1 → runLines? line values = none
  | [_], _ => rfl
  | count :: step :: rest, h => by
    have hrest : rest.length % 2 = 1 := by
      rw [List.length_cons, List.length_cons] at h
      omega
    rw [runLines?, runLines?_eq_none hrest]
    rfl

/-! ### Entries that give numbers -/

/-- Numbers that are kept apart by blanks are given by the entry around them. -/
private theorem exists_gives_value (output input : EntryName) (offset first : ShortInt)
    (values : List ShortInt) : ∃ body, Gives body output.text input.text offset.value
      (first.value :: values.map ShortInt.value) := by
  let space : Gap := ⟨[.blank ' ' rfl], List.cons_ne_nil _ _⟩
  let ns : List (Gap × ShortInt) := values.map fun n => (space, n)
  have hnotMem : ∀ c, isBlank c = false → c ≠ '-' → c.isDigit = false →
      c ∉ first.text ++ joinContinuations (spaced ns) := fun c hb hm hd =>
    List.not_mem_append (ShortInt.notMem_text hm hd) (notMem_join_spaced hb hm hd ns)
  have htrim : trim (first.text ++ joinContinuations (spaced ns)) =
      first.text ++ joinContinuations (spaced ns) :=
    trim_eq_self_iff.mpr ⟨fun c => ShortInt.isBlank_of_head_text_append,
      fun c => isBlank_of_getLast_text_append first ns⟩
  have hofs : dropLead? "ofs".toList (first.text ++ joinContinuations (spaced ns)) = none := by
    refine dropLead?_eq_none ?_
    rintro ⟨r, hr⟩
    exact hnotMem 'o' (by decide) (by decide) (by decide)
      (hr ▸ List.mem_append_left r (by decide))
  have hread : readInts (words (first.text ++ joinContinuations (spaced ns))) =
      .ok (first.value :: values.map ShortInt.value) := by
    have hvalues : ns.map (·.2.text) = values.map ShortInt.text := by
      rw [List.map_map]
      rfl
    rw [words_text_append, hvalues, ← List.map_cons, readInts_text]
    rfl
  exact ⟨_, gives_fieldsText output input (some offset)
    (hnotMem ':' (by decide) (by decide) (by decide)) htrim hofs hread⟩

/-- Whatever whole numbers there are, some entry gives them if they are short enough to be read. -/
theorem exists_gives (output input : EntryName) {offset first : Int} {values : List Int}
    (h : ∀ n ∈ offset :: first :: values, n.natAbs < Nat.pow 10 digitLimit) :
    ∃ body, Gives body output.text input.text offset (first :: values) := by
  rw [List.forall_mem_cons, List.forall_mem_cons] at h
  obtain ⟨ho, hf, hv⟩ := h
  obtain ⟨body, hbody⟩ := exists_gives_value output input ⟨offset, ho⟩ ⟨first, hf⟩
    (values.pmap ShortInt.mk hv)
  rw [List.map_pmap, List.pmap_eq_map, List.map_id''] at hbody
  · exact ⟨body, hbody⟩
  · exact fun n => rfl

/-! ### The main result -/

/-- Whether a concordance maps lines as an offset, a first source line and runs say. -/
structure IsLineMap (c : Concordance) (offset first : Int) (runs : List Run) : Prop where
  covers_iff : ∀ line, c.covers line = true ↔
    offset + 1 ≤ line ∧ line ≤ offset + 1 + lineCount runs
  sourceLine_first : c.sourceLine (offset + 1) = first
  sourceLine_run : ∀ before r behind, runs = before ++ r :: behind → ∀ k, 1 ≤ k → k ≤ r.count →
    c.sourceLine (offset + 1 + lineCount before + k) = first + advance before + k * r.step
  sourceLine_other : ∀ line, ¬ (offset + 1 ≤ line ∧ line ≤ offset + 1 + lineCount runs) →
    c.sourceLine line = line

private theorem isLineMap {c : Concordance} {first : Int} {runs : List Run}
    (ho : c.outputFile.isNone = false) (hl : c.lines = first :: runSourceLines first runs) :
    IsLineMap c c.offset first runs := by
  have hempty : c.isEmpty = false := by
    rw [isEmpty, ho, hl]
    rfl
  have hlen : c.lines.length = lineCount runs + 1 := by
    rw [hl, List.length_cons, length_runSourceLines]
  have hcovers : ∀ line, c.covers line = true ↔
      c.offset + 1 ≤ line ∧ line ≤ c.offset + 1 + lineCount runs := by
    intro line
    rw [covers_iff, hlen]
    constructor
    · rintro ⟨-, k, hk, rfl⟩
      omega
    · rintro ⟨hlow, hhigh⟩
      exact ⟨hempty, (line - c.offset - 1).toNat, by omega, by omega⟩
  have hat : ∀ (k : Nat) (line : Int), c.lines[k]? = some line →
      c.sourceLine (c.offset + 1 + k) = line := by
    intro k line hk
    obtain ⟨hlt, -⟩ := List.getElem?_eq_some_iff.mp hk
    exact Option.some.inj ((sourceLine_eq hempty hlt).symm.trans hk)
  refine ⟨hcovers, ?_, ?_, fun line hline => ?_⟩
  · have hfirst := hat 0 first (by rw [hl]; rfl)
    rwa [Int.natCast_zero, Int.add_zero] at hfirst
  · rintro before r behind rfl k h1 hk
    obtain ⟨n, rfl⟩ : ∃ n : Nat, k = n + 1 := ⟨(k - 1).toNat, by omega⟩
    have hrun : c.lines[lineCount before + n + 1]? =
        some (first + advance before + (n + 1) * r.step) := by
      rw [hl, List.getElem?_cons_succ, getElem?_runSourceLines _ _ _ _ (by omega)]
    have hline : c.offset + 1 + lineCount before + ((n : Int) + 1) =
        c.offset + 1 + ((lineCount before + n + 1 : Nat) : Int) := by
      push_cast
      ring
    rw [hline]
    exact hat _ _ hrun
  · rw [sourceLine, if_neg fun h => hline ((hcovers line).mp h)]

/-- **The line map of an entry in closed form.** Whatever whole numbers an entry gives, they stand
for source lines that the concordance has as its line map, unless a count stands without its step.
Then the entry is refused. All numbers are given by some entry, if they are short enough. -/
theorem isLineMap_of_entry (offset first : Int) :
    (∀ runs : List Run, ∃ lines, decodeLines (first :: runs.flatMap Run.values) = .ok lines ∧
      (∀ output input : Path, IsLineMap ⟨some output, some input, lines, offset⟩ offset first
        runs) ∧
      ∀ (baseDir : Path) (body output input : List Char),
        Gives body output input offset (first :: runs.flatMap Run.values) →
          ofBody baseDir body = .ok ⟨some (baseDir.child (String.ofList output)),
            some (baseDir.child (String.ofList input)), lines, offset⟩) ∧
    (∀ values : List Int, values.length % 2 = 1 →
      decodeLines (first :: values) = .error (.unpaired (first :: values)) ∧
      ∀ (baseDir : Path) (body output input : List Char),
        Gives body output input offset (first :: values) →
          ofBody baseDir body = .error (.unpaired (first :: values))) ∧
    ∀ (output input : EntryName) (values : List Int),
      (∀ n ∈ offset :: first :: values, n.natAbs < Nat.pow 10 digitLimit) →
        ∃ body, Gives body output.text input.text offset (first :: values) := by
  refine ⟨?_, ?_, fun output input values h => exists_gives output input h⟩
  · intro runs
    have hlines : decodeLines (first :: runs.flatMap Run.values) =
        .ok (first :: runSourceLines first runs) := by
      rw [decodeLines, runLines?_values]
    refine ⟨_, hlines, fun output input => isLineMap rfl rfl, fun baseDir body output input h => ?_⟩
    rw [ofBody_of_gives h, hlines]
    rfl
  · intro values hodd
    have herror : decodeLines (first :: values) = .error (.unpaired (first :: values)) := by
      rw [decodeLines, runLines?_eq_none hodd]
    refine ⟨herror, fun baseDir body output input h => ?_⟩
    rw [ofBody_of_gives h, herror]
    rfl

/-- An entry with an offset, runs of which one has a negative count, and a negative step. -/
theorem isLineMap_of_entry_negative :
    ∃ c, ofBody (Path.ofString "/d") "concordance:a.tex:a.Rnw:ofs -2:10 2 3 -4 7 1 -5".toList =
        .ok c ∧ (∀ line, c.covers line = true ↔ -1 ≤ line ∧ line ≤ 2) ∧
      c.sourceLine (-1) = 10 ∧ c.sourceLine 2 = 11 ∧ c.sourceLine 3 = 3 ∧
      ofBody (Path.ofString "/d") "concordance:a.tex:a.Rnw:10 2".toList =
        .error (.unpaired [10, 2]) := by
  have hfields : (fields ':' "concordance:a.tex:a.Rnw:ofs -2:10 2 3 -4 7 1 -5".toList).map trim =
      ["concordance".toList, "a.tex".toList, "a.Rnw".toList, "ofs -2".toList,
        "10 2 3 -4 7 1 -5".toList] := by decide +kernel
  have hoffset : readOffset "ofs -2".toList = .ok (-2) := by decide +kernel
  have hread : readInts (words "10 2 3 -4 7 1 -5".toList) = .ok [10, 2, 3, -4, 7, 1, -5] := by
    decide +kernel
  have hgives := Gives.shifted hfields rfl hoffset hread
  have hfields' : (fields ':' "concordance:a.tex:a.Rnw:10 2".toList).map trim =
      ["concordance".toList, "a.tex".toList, "a.Rnw".toList, "10 2".toList] := by decide +kernel
  have hread' : readInts (words "10 2".toList) = .ok [10, 2] := by decide +kernel
  have hgives' := Gives.plain hfields' rfl hread'
  obtain ⟨lines, -, hmap, hbody⟩ := (isLineMap_of_entry (-2) 10).1 [⟨2, 3⟩, ⟨-4, 7⟩, ⟨1, -5⟩]
  have h := hmap ((Path.ofString "/d").child "a.tex") ((Path.ofString "/d").child "a.Rnw")
  exact ⟨_, hbody _ _ _ _ hgives, h.covers_iff, h.sourceLine_first,
    h.sourceLine_run [⟨2, 3⟩, ⟨-4, 7⟩] ⟨1, -5⟩ [] rfl 1 (by decide) (by decide),
    h.sourceLine_other 3 (by decide),
    ((isLineMap_of_entry 0 10).2.1 [2] rfl).2 _ _ _ _ hgives'⟩

end Galley.Concordance
