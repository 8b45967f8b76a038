import Galley.Proofs.Path.Spelling

/-!
# The home directory as a tilde

`Path.aliased` shows a path in the home directory with a tilde in place of it, and every other path
as it is. `Path.expanded` goes back: the home directory takes the place of a component `~` that a
path starts with.

An alias is faithful. It starts with a tilde just if the components of the home directory stand in
front of those of the path (`head?_aliased_iff`), so that what merely has a similar spelling is left
alone, and expanded again it is the path (`expanded_ofString_aliased`). The text may be expanded as
well (`toString_eq_of_aliased`), unless the home directory is the root: written out in front of a
slash, it would become the other root.
-/

namespace Galley

private theorem Anchor.text_inj {a b : Anchor} : a.text = b.text ↔ a = b := by
  cases a <;> cases b <;> decide

namespace Path

/-- The components of a path, an absolute one with its root in front. -/
def components (p : Path) : List String :=
  if p.anchor = .here then p.parts else p.anchor.text :: p.parts

/-- The path that is meant where a leading tilde stands for the home directory. -/
def expanded (p home : Path) : Path :=
  match p with
  | ⟨.here, "~" :: rest⟩ => { home with parts := home.parts ++ rest }
  | _ => p

variable {p home : Path}

/-! ### Paths in the home directory -/

private theorem components_of_isAbsolute (h : p.isAbsolute = true) :
    p.components = p.anchor.text :: p.parts :=
  if_neg (isAbsolute_iff.mp h)

private theorem prefix_components_iff (hhome : home.isAbsolute = true) (hp : p.isAbsolute = true) :
    home.components <+: p.components ↔ p.LiesIn home := by
  rw [components_of_isAbsolute hhome, components_of_isAbsolute hp, List.cons_prefix_cons,
    Anchor.text_inj, LiesIn, eq_comm]

private theorem LiesIn.aliased_eq (h : p.LiesIn home) : ∃ rest, p.parts = home.parts ++ rest ∧
    p.aliased home = toString (⟨.here, "~" :: rest⟩ : Path) := by
  obtain ⟨rest, hparts, hrest⟩ := h.exists_eq
  exact ⟨rest, hparts, by rw [aliased, hrest]⟩

private theorem aliased_eq_toString (h : ¬ p.LiesIn home) : p.aliased home = toString p := by
  rw [aliased, relativeTo?_eq_none h]

/-! ### Printed aliases -/

/-- How components are spelled that have others in front of them. -/
def spelledBehind (rest : List String) : String :=
  if rest = [] then "" else "/" ++ "/".intercalate rest

private theorem toString_append (anchor : Anchor) {front : List String} (h : front ≠ [])
    (rest : List String) : toString (⟨anchor, front ++ rest⟩ : Path) =
      toString (⟨anchor, front⟩ : Path) ++ spelledBehind rest := by
  have htext {parts : List String} (hne : parts ≠ []) :
      toString (⟨anchor, parts⟩ : Path) = anchor.text ++ "/".intercalate parts :=
    if_neg fun hn => hne hn.2
  rw [htext h, htext (List.append_ne_nil_of_left_ne_nil h rest), spelledBehind]
  split
  · next hr => rw [hr, List.append_nil, String.append_empty]
  · next hr =>
    rw [String.intercalate_append_of_ne_nil h hr, String.append_assoc, String.append_assoc]

private theorem toString_tilde (rest : List String) :
    toString (⟨.here, "~" :: rest⟩ : Path) = "~" ++ spelledBehind rest :=
  toString_append .here (List.cons_ne_nil "~" []) rest

private theorem head?_toString (h : p.isAbsolute = true) : (toString p).toList.head? = some '/' :=
    by
  obtain ⟨anchor, parts⟩ := p
  rw [toList_toString, if_neg fun hn => isAbsolute_iff.mp h hn.1]
  cases anchor with
  | here => cases h
  | root | twoSlashes => simp [Anchor.text]

/-- **A tilde** stands in front just if the path is in the home directory. -/
theorem head?_aliased_iff (hhome : home.isAbsolute = true) (hp : p.isAbsolute = true) :
    (p.aliased home).toList.head? = some '~' ↔ home.components <+: p.components := by
  rw [prefix_components_iff hhome hp]
  by_cases h : p.LiesIn home
  · refine iff_of_true ?_ h
    obtain ⟨rest, -, halias⟩ := h.aliased_eq
    rw [halias, toString_tilde, String.toList_append]
    rfl
  · refine iff_of_false (fun htilde => ?_) h
    rw [aliased_eq_toString h, head?_toString hp] at htilde
    cases htilde

/-- A directory whose name only starts like that of the home directory is another one. -/
example : (ofString "/home/ann2/r.pdf").aliased (ofString "/home/ann") = "/home/ann2/r.pdf" := by
  decide

/-- An alias may be expanded in its text, unless the home directory is the root. -/
theorem toString_eq_of_aliased (hhome : home.isAbsolute = true) (hp : p.isAbsolute = true)
    (hne : home.parts ≠ []) {rest : String} (h : p.aliased home = "~" ++ rest) :
    toString p = toString home ++ rest := by
  have htilde : (p.aliased home).toList.head? = some '~' := by
    rw [h, String.toList_append]
    rfl
  have hin : p.LiesIn home :=
    (prefix_components_iff hhome hp).mp ((head?_aliased_iff hhome hp).mp htilde)
  obtain ⟨parts, hparts, halias⟩ := hin.aliased_eq
  rw [halias, toString_tilde, String.append_right_inj] at h
  have hsplit : p = ⟨home.anchor, home.parts ++ parts⟩ := by rw [← hparts, ← hin.1]
  calc toString p = toString (⟨home.anchor, home.parts ++ parts⟩ : Path) := congrArg toString hsplit
    _ = toString home ++ spelledBehind parts := toString_append home.anchor hne parts
    _ = toString home ++ rest := by rw [h]

/-! ### Expanded aliases -/

private theorem expanded_of_isAbsolute (h : p.isAbsolute = true) (home : Path) : p.expanded home =
    p := by
  obtain ⟨anchor, parts⟩ := p
  cases anchor with
  | here => cases h
  | root | twoSlashes => rfl

/-- **An alias that is read and expanded** is the path. -/
theorem expanded_ofString_aliased (hp : p.isAbsolute = true) (hw : p.WellSpelled) (home : Path) :
    (ofString (p.aliased home)).expanded home = p := by
  by_cases h : p.LiesIn home
  · obtain ⟨rest, hparts, halias⟩ := h.aliased_eq
    have hrest : WellSpelled ⟨.here, "~" :: rest⟩ := by
      refine List.forall_mem_cons.mpr ⟨by decide, fun w hmem => hw w ?_⟩
      rw [hparts]
      exact List.mem_append_right home.parts hmem
    rw [halias, ofString_toString hrest, expanded, ← hparts, ← h.1]
  · rw [aliased_eq_toString h, ofString_toString hw, expanded_of_isAbsolute hp]

/-- **Aliases are faithful.** A tilde stands in front of what is in the home directory, and of
nothing else. It can be replaced again, in the components and, unless the home directory is the
root, in the text, so that different paths have different aliases. -/
theorem aliased_faithful {q : Path} (hhome : home.isAbsolute = true) (hp : p.isAbsolute = true)
    (hq : q.isAbsolute = true) (hpw : p.WellSpelled) (hqw : q.WellSpelled) :
    ((p.aliased home).toList.head? = some '~' ↔ home.components <+: p.components) ∧
      (ofString (p.aliased home)).expanded home = p ∧
      (home.parts ≠ [] → ∀ rest, p.aliased home = "~" ++ rest →
        toString p = toString home ++ rest) ∧
      (p.aliased home = q.aliased home ↔ p = q) := by
  refine ⟨head?_aliased_iff hhome hp, expanded_ofString_aliased hp hpw home,
    fun hne rest => toString_eq_of_aliased hhome hp hne, fun h => ?_, congrArg (aliased · home)⟩
  rw [← expanded_ofString_aliased hp hpw home, h, expanded_ofString_aliased hq hqw home]

/-- A path that leaves the home directory again, and a directory beside it. -/
theorem aliased_faithful_detour :
    (ofString "/home/ann").isAbsolute = true ∧ (ofString "/home/ann/../bob").isAbsolute = true ∧
      (ofString "/home/ann2").isAbsolute = true ∧ (ofString "/home/ann/../bob").WellSpelled ∧
      (ofString "/home/ann2").WellSpelled ∧
      (ofString "/home/ann").components <+: (ofString "/home/ann/../bob").components ∧
      (ofString "~/../bob").expanded (ofString "/home/ann") = ofString "/home/ann/../bob" ∧
      toString (ofString "/home/ann/../bob") = toString (ofString "/home/ann") ++ "/../bob" ∧
      (ofString "/home/ann/../bob").aliased (ofString "/home/ann") ≠
        (ofString "/home/ann2").aliased (ofString "/home/ann") := by
  have hhome : (ofString "/home/ann").isAbsolute = true := by decide
  have hp : (ofString "/home/ann/../bob").isAbsolute = true := by decide
  have hq : (ofString "/home/ann2").isAbsolute = true := by decide
  have hpw : (ofString "/home/ann/../bob").WellSpelled := wellSpelled_ofString _
  have hqw : (ofString "/home/ann2").WellSpelled := wellSpelled_ofString _
  have halias : (ofString "/home/ann/../bob").aliased (ofString "/home/ann") = "~/../bob" := by
    decide
  obtain ⟨htilde, hexpanded, htext, hsame⟩ := aliased_faithful hhome hp hq hpw hqw
  refine ⟨hhome, hp, hq, hpw, hqw, htilde.mp ?_, ?_, htext ?_ "/../bob" halias, fun he => ?_⟩
  · rw [halias]
    decide
  · rwa [halias] at hexpanded
  · decide
  · exact absurd (hsame.mp he) (by decide)

end Path

end Galley
