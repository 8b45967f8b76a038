import Galley.Toolchain.Output
import Mathlib.Data.List.Basic
import Mathlib.Data.List.Induction

/-!
# Combined output

The output of a run is built up step by step: `ToolOutput.extend` puts the next step behind what
has been combined so far, and joins texts that have been joined before. `ToolOutput.ofSteps` says at
once what steps leave together. Their texts are joined by `joinAll`, which passes over empty texts
and puts one line feed between any two of the others.

All follows from one law, that outputs combined in two parts combine to the whole
(`extend_ofSteps`). It rests on the same law for texts (`joinAll_append`), in which an empty part
takes no line feed with it.
-/

namespace Galley.ToolOutput

/-! ### Joined texts -/

/-- The texts that are not empty, in order, with a line feed between any two. -/
def joinAll (texts : List String) : String := "\n".intercalate (texts.filter (· != ""))

@[simp]
theorem joinAll_singleton (s : String) : joinAll [s] = s := by
  by_cases hs : s = ""
  · rw [hs]
    rfl
  · simp [joinAll, hs]

private theorem joinLines_empty (s : String) : joinLines s "" = s := joinAll_singleton s

private theorem empty_joinLines (s : String) : joinLines "" s = s := joinAll_singleton s

private theorem joinLines_of_ne {s t : String} (hs : s ≠ "") (ht : t ≠ "") :
    joinLines s t = s ++ "\n" ++ t := by
  simp [joinLines, hs, ht]

private theorem intercalate_cons_ne_empty {sep s : String} (hs : s ≠ "") (texts : List String) :
    sep.intercalate (s :: texts) ≠ "" := by
  cases texts with
  | nil => rwa [String.intercalate_singleton]
  | cons t texts =>
    intro he
    rw [String.intercalate_cons_cons, String.append_assoc, String.append_eq_empty_iff] at he
    exact hs he.1

/-- Only empty texts leave nothing. -/
theorem joinAll_ne_empty {texts : List String} (h : texts.filter (· != "") ≠ []) :
    joinAll texts ≠ "" := by
  obtain ⟨s, rest, hs⟩ := List.exists_cons_of_ne_nil h
  have hmem : s ∈ texts.filter (· != "") := hs ▸ List.mem_cons_self
  rw [joinAll, hs]
  exact intercalate_cons_ne_empty (by simpa using (List.mem_filter.mp hmem).2) rest

/-- **Texts joined in two parts** join to the whole. -/
theorem joinAll_append (front back : List String) :
    joinAll (front ++ back) = joinLines (joinAll front) (joinAll back) := by
  rw [joinAll, List.filter_append]
  -- A line feed comes between the parts only if there is text in both.
  by_cases hf : front.filter (· != "") = []
  · have hempty : joinAll front = "" := by rw [joinAll, hf, String.intercalate_nil]
    rw [hf, List.nil_append, hempty, empty_joinLines, joinAll]
  · by_cases hb : back.filter (· != "") = []
    · have hempty : joinAll back = "" := by rw [joinAll, hb, String.intercalate_nil]
      rw [hb, List.append_nil, hempty, joinLines_empty, joinAll]
    · rw [String.intercalate_append_of_ne_nil hf hb,
        joinLines_of_ne (joinAll_ne_empty hf) (joinAll_ne_empty hb), joinAll, joinAll]

/-! ### Combined steps -/

/-- What steps leave together, the first of them given apart: all that they wrote, all that they
started, and the status of the last one. -/
def ofSteps (first : ToolOutput) (more : List ToolOutput) : ToolOutput where
  status := (more.getLastD first).status
  output := joinAll ((first :: more).map output)
  errors := joinAll ((first :: more).map errors)
  commands := (first :: more).flatMap commands

@[simp]
theorem ofSteps_nil (first : ToolOutput) : first.ofSteps [] = first := by
  simp [ofSteps]

/-- **Steps combined in two parts** combine to the whole. -/
theorem extend_ofSteps (first second : ToolOutput) (front back : List ToolOutput) :
    (first.ofSteps front).extend (second.ofSteps back) =
      first.ofSteps (front ++ second :: back) := by
  have hlast : (front ++ second :: back).getLastD first = back.getLastD second := by
    rw [List.getLastD_eq_getLast?, List.getLast?_append, List.getLast?_cons, Option.some_or,
      Option.getD_some, List.getLastD_eq_getLast?]
  rw [ofSteps, ofSteps, ofSteps, extend, hlast, ← List.cons_append, List.map_append,
    List.map_append, joinAll_append, joinAll_append, List.flatMap_append]

private theorem extend_eq_ofSteps (first second : ToolOutput) :
    first.extend second = first.ofSteps [second] := by
  have h := extend_ofSteps first second [] []
  rwa [ofSteps_nil, ofSteps_nil, List.nil_append] at h

private theorem extend_assoc (first second third : ToolOutput) :
    first.extend (second.extend third) = (first.extend second).extend third := by
  have hright := extend_ofSteps first second [] [third]
  have hleft := extend_ofSteps first third [second] []
  rw [ofSteps_nil, ← extend_eq_ofSteps] at hright hleft
  exact hright.trans hleft.symm

/-- One step after the other is put behind what has been combined so far. -/
private theorem foldl_extend (first : ToolOutput) (more : List ToolOutput) :
    more.foldl extend first = first.ofSteps more := by
  induction more using List.reverseRecOn with
  | nil => rw [List.foldl_nil, ofSteps_nil]
  | append_singleton more last ih =>
    have hlast := extend_ofSteps first last more []
    rw [ofSteps_nil] at hlast
    rw [List.foldl_concat, ih, hlast]

/-- Where nothing has been combined so far, a step leaves what it leaves alone. -/
private theorem empty_extend (step : ToolOutput) : ({} : ToolOutput).extend step = step := by
  rw [extend, empty_joinLines, empty_joinLines, List.nil_append]

/-- **Steps may be combined one by one or in groups.** Either way they leave all that they wrote and
started, in order, and the status of the last one. -/
theorem steps_combine (first : ToolOutput) (more : List ToolOutput) :
    more.foldl extend first = first.ofSteps more ∧
      (∀ second third, first.extend (second.extend third) = (first.extend second).extend third) ∧
      ({} : ToolOutput).extend first = first :=
  ⟨foldl_extend first more, extend_assoc first, empty_extend first⟩

end Galley.ToolOutput
