import Galley.Proofs.Log.Echo
import Galley.Proofs.Log.Parentheses
import Galley.Proofs.Text.Ink

/-!
# Logs with a pause

A **pause** is ten blank lines. What is in front of a pause and what is behind it are read one after
the other: only the files that are open go from the one to the other
(`entries_append_of_pause`).

What a line reports depends on the lines behind it in two ways, the search for the place of an error
and the continuation of a warning. Neither goes beyond a pause: the search is over after ten lines,
and a warning stops in front of a blank one. So the lines up to a pause are `SelfContained`, and
self-contained lines can be taken off the front of a log
(`SelfContained.entriesOfLines_append`).
-/

namespace Galley

open Text

namespace TexLog

variable {files : FileStack} {ls : List (List Char)}

/-! ### Files behind lines -/

/-- The files that are open behind the lines of a log. -/
def filesBehind (files : FileStack) (ls : List (List Char)) : FileStack := ls.foldl filesAfter files

private theorem filesBehind_cons (files : FileStack) (line : List Char) (ls : List (List Char)) :
    filesBehind files (line :: ls) = filesBehind (filesAfter files line) ls := rfl

/-- The lines of a log that tell which files are opened and closed. -/
def scanned (ls : List (List Char)) : List (List Char) :=
  ls.filter fun line => TexLine.ofChars line = .plain

private theorem filesBehind_eq (files : FileStack) (ls : List (List Char)) :
    filesBehind files ls = (scanned ls).foldl FileStack.feed files := by
  rw [filesBehind, scanned, List.foldl_filter]
  congr 1
  funext files line
  by_cases h : TexLine.ofChars line = .plain
  · rw [filesAfter_of_plain h, if_pos (by simpa using h)]
  · rw [filesAfter_of_ne_plain h, if_neg (by simpa using h)]

/-- Lines that close every parenthesis they open leave no file open. -/
private theorem filesBehind_of_closed (h : ∀ i, ¬ IsUnclosed (scanned ls).flatten i)
    (baseDir mainFile : Path) :
    filesBehind { baseDir, mainFile } ls = { baseDir, mainFile } := by
  rw [filesBehind_eq, FileStack.feed_lines, openings_eq_nil_iff.mpr h]
  rfl

/-! ### Self-contained lines -/

/-- Whether the lines of a log report the same in front of any others as at the end of the log. -/
def SelfContained : List (List Char) → Prop
  | [] => True
  | line :: behind =>
    (∀ (files : FileStack) back, entryOfLine files (TexLine.ofChars line) (behind ++ back) =
      entryOfLine files (TexLine.ofChars line) behind) ∧ SelfContained behind

/-- **Self-contained lines are read by themselves**: what stands behind them is read with the files
that they leave open, and adds its entries. -/
theorem SelfContained.entriesOfLines_append (h : SelfContained ls) (files : FileStack)
    (back : List (List Char)) :
    entriesOfLines files (ls ++ back) = (do
      let before ← entriesOfLines files ls
      let behind ← entriesOfLines (filesBehind files ls) back
      return before ++ behind) := by
  induction ls generalizing files with
  | nil => exact (bind_pure _).symm
  | cons line ls ih =>
    rw [List.cons_append, entriesOfLines, entriesOfLines, h.1, ih h.2, filesBehind_cons]
    simp only [bind_assoc, pure_bind, List.append_assoc]

private theorem ofChars_of_trim_eq_nil {line : List Char} (h : trim line = []) :
    TexLine.ofChars line = .plain := by
  have hno : ∀ c, isBlank c = false → c ∉ line := by
    intro c hc hm
    have hink : c ∈ ink line := mem_ink_iff.mpr ⟨hm, hc⟩
    rw [trim_eq_nil_iff.mp h] at hink
    cases hink
  cases line with
  | nil => rfl
  | cons c line =>
    have hlead : ∀ d ∈ ['!', 'L', 'P', 'C', 'O', 'U'], isBlank d = false := by decide
    exact TexLine.ofChars_plain (TexLine.fileError?_eq_none_of_notMem (hno ':' (by decide)))
      fun hc => hno c (hlead c hc) List.mem_cons_self

private theorem selfContained_of_blank {block : List (List Char)}
    (h : ∀ line ∈ block, trim line = []) : SelfContained block := by
  induction block with
  | nil => exact trivial
  | cons line block ih =>
    rw [List.forall_mem_cons] at h
    refine ⟨fun files back => ?_, ih h.2⟩
    rw [ofChars_of_trim_eq_nil h.1]
    rfl

/-! ### Lines in front of a pause -/

/-- A warning ends in front of a blank line. -/
private theorem endsWithin_append_blank {blank : List Char} (h : trim blank = []) (limit : Nat)
    (text : List Char) (front back : List (List Char)) :
    endsWithin limit text (front ++ blank :: back) = true := by
  induction limit generalizing text front with
  | zero => simp [endsWithin]
  | succ limit ih =>
    cases front with
    | nil => simp [endsWithin, h]
    | cons line front => rw [List.cons_append, endsWithin, ih, Bool.or_true]

/-- A line in front of a pause reports the same whatever stands behind the pause. -/
theorem entryOfLine_append_of_pause {front block : List (List Char)} (kind : TexLine)
    (hlen : placeLookahead ≤ block.length) (hblank : ∀ line ∈ block, trim line = [])
    (back : List (List Char)) :
    entryOfLine files kind (front ++ block ++ back) = entryOfLine files kind (front ++ block) := by
  cases kind with
  | error message =>
    have htake : (front ++ block ++ back).take placeLookahead =
        (front ++ block).take placeLookahead :=
      List.take_append_of_le_length (by rw [List.length_append]; omega)
    rw [entryOfLine, entryOfLine, htake]
  | warning message =>
    obtain ⟨blank, block, rfl⟩ := List.exists_cons_of_length_pos
      (show 0 < block.length from Nat.lt_of_lt_of_le (by decide) hlen)
    have hends := endsWithin_append_blank (hblank blank List.mem_cons_self) continuationLimit
      message front block
    rw [entryOfLine, entryOfLine, continued_append hends]
  | fileError | badBox | givenUp | plain => rfl

private theorem selfContained_append_of_pause (front : List (List Char)) {block : List (List Char)}
    (hlen : placeLookahead ≤ block.length) (hblank : ∀ line ∈ block, trim line = []) :
    SelfContained (front ++ block) := by
  induction front with
  | nil => exact selfContained_of_blank hblank
  | cons line front ih =>
    exact ⟨fun files back => entryOfLine_append_of_pause _ hlen hblank back, ih⟩

/-! ### The main result -/

/-- Whether a text ends in a line feed, and its last ten lines are blank. -/
structure EndsInPause (x : List Char) : Prop where
  getLast?_eq : x.getLast? = some '\n'
  exists_block : ∃ front block, lines x = front ++ block ∧ block.length = 10 ∧
    ∀ line ∈ block, trim line = []

private theorem EndsInPause.selfContained {x : List Char} (h : EndsInPause x) :
    SelfContained (lines x) := by
  obtain ⟨front, block, hlines, hlen, hblank⟩ := h.exists_block
  rw [hlines]
  exact selfContained_append_of_pause front (by rw [hlen]; decide) hblank

private theorem EndsInPause.lines_append {x : List Char} (h : EndsInPause x) (y : List Char) :
    lines (x ++ y) = lines x ++ lines y := by
  obtain ⟨s, rfl⟩ := List.getLast?_eq_some_iff.mp h.getLast?_eq
  rw [List.append_assoc, List.singleton_append, lines_append_feed_append]

/-- **A log is read part by part.** Behind a pause it is read with the files that are open there,
and like a log of its own if every parenthesis that was opened is closed. If one part cannot be
read, the log fails as the first such part does. -/
theorem entries_append_of_pause {x : List Char} (hx : EndsInPause x) (y : List Char)
    (baseDir mainFile : Path) :
    entries (x ++ y) baseDir mainFile = (do
      let before ← entries x baseDir mainFile
      let behind ← entriesOfLines (filesBehind { baseDir, mainFile } (lines x)) (lines y)
      return before ++ behind) ∧
    ((∀ i, ¬ IsUnclosed (scanned (lines x)).flatten i) →
      entries (x ++ y) baseDir mainFile = (do
        let before ← entries x baseDir mainFile
        let behind ← entries y baseDir mainFile
        return before ++ behind)) := by
  have hparts := hx.selfContained.entriesOfLines_append { baseDir, mainFile } (lines y)
  rw [← hx.lines_append] at hparts
  refine ⟨hparts, fun hclosed => ?_⟩
  rw [filesBehind_of_closed hclosed] at hparts
  exact hparts

/-- A log that ends with an error that shows no place, and a pause. -/
def pausedLog : List Char :=
  "(./a.tex\n./a.tex:3: Missing $ inserted.\n)\n! Undefined control sequence.\n".toList ++
    List.replicate 10 '\n'

/-- The error is not given the place that stands behind the pause. -/
theorem entries_append_of_pause_unplaced :
    EndsInPause pausedLog ∧ (∀ i, ¬ IsUnclosed (scanned (lines pausedLog)).flatten i) ∧
      entries (pausedLog ++ "l.5 x\n! Emergency stop.\nl.7 y".toList) (Path.ofString "/doc")
          (Path.ofString "/doc/main.tex") =
        .ok [⟨.error, some (Path.ofString "/doc/a.tex"), 3, "Missing $ inserted"⟩,
          ⟨.error, some (Path.ofString "/doc/main.tex"), 7, "Emergency stop"⟩] := by
  have hpause : EndsInPause pausedLog :=
    ⟨by decide +kernel, (lines pausedLog).take 4, List.replicate 10 [], by decide +kernel,
      by decide, by decide⟩
  have hclosed : ∀ i, ¬ IsUnclosed (scanned (lines pausedLog)).flatten i :=
    openings_eq_nil_iff.mp (by decide +kernel)
  exact ⟨hpause, hclosed,
    ((entries_append_of_pause hpause _ _ _).2 hclosed).trans (by decide +kernel)⟩

end TexLog

end Galley
