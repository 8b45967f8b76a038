import Galley.Proofs.Path

/-!
# Spellings of a path

A path may be spelled in many ways. What a spelling means is the place that its components lead to
(`reached`): from the root, or from another place if there is no slash in front, `..` leads one
directory up, a name leads down, and an empty component or a single dot leads nowhere. What is read
from a directory and normalized is the path to this place (`resolveIn_eq`), and so is the path that
it denotes anywhere (`locate_child`).

The other way round, a path prints a spelling of itself (`ofString_toString`), as long as its
components are such as spellings have (`WellSpelled`).
-/

namespace Galley.Path

open Text

/-! ### Where components lead -/

/-- Where a component leads from a place, which is given by the names from the root down to it.
Above the root there is nothing. -/
def enter (place : List String) (part : String) : List String :=
  if part = ".." then place.dropLast else place ++ [part]

/-- Where the components of a spelling lead from a place. -/
def follow (place : List String) (s : String) : List String :=
  (fields '/' s.toList).foldl
    (fun place w => if w = [] ∨ w = ['.'] then place else enter place (String.ofList w)) place

/-- The place that a spelling denotes, read from the directory that another spelling denotes. -/
def reached (base s : String) : List String :=
  follow (if s.toList.head? = some '/' then [] else follow [] base) s

private theorem follow_eq (place : List String) (s : String) :
    follow place s = (ofString s).parts.foldl enter place := by
  rw [follow, ofString, partsOf, List.foldl_map, List.foldl_filter]
  congr 1
  funext place w
  by_cases hw : w = [] ∨ w = ['.']
  · rw [if_pos hw, if_neg (by simpa [or_iff_not_imp_left] using hw)]
  · rw [if_neg hw, if_pos (by simpa using hw)]

theorem foldl_enter_of_no_up {parts : List String} (h : ".." ∉ parts) (place : List String) :
    parts.foldl enter place = place ++ parts := by
  induction parts generalizing place with
  | nil => rw [List.foldl_nil, List.append_nil]
  | cons part rest ih =>
    rw [List.mem_cons, not_or] at h
    rw [List.foldl_cons, enter, if_neg (Ne.symm h.1), ih h.2, List.append_assoc,
      List.singleton_append]

/-- To normalize components is to follow them. -/
theorem normalizeParts_eq_foldl {kept : List String} (h : ".." ∉ kept) (parts : List String) :
    normalizeParts true kept parts = parts.foldl enter kept.reverse := by
  -- With no `..` kept, a further `..` always takes the last name away, or stays at the root.
  induction parts generalizing kept with
  | nil => rfl
  | cons part rest ih =>
    rw [List.foldl_cons]
    by_cases hp : part = ".."
    · cases kept with
      | nil =>
        have hstay : normalizeParts true [] (part :: rest) = normalizeParts true [] rest := by
          simp [normalizeParts, hp]
        rw [hstay, ih h, enter, if_pos hp, List.reverse_nil, List.dropLast_nil]
      | cons last before =>
        rw [List.mem_cons, not_or] at h
        have hup : normalizeParts true (last :: before) (part :: rest) =
            normalizeParts true before rest := by
          simp [normalizeParts, hp, Ne.symm h.1]
        rw [hup, ih h.2, enter, if_pos hp, List.reverse_cons, List.dropLast_concat]
    · have hdown : normalizeParts true kept (part :: rest) =
          normalizeParts true (part :: kept) rest := by
        simp [normalizeParts, hp]
      have hkept : ".." ∉ part :: kept := by
        rw [List.mem_cons, not_or]
        exact ⟨Ne.symm hp, h⟩
      rw [hdown, ih hkept, enter, if_neg hp, List.reverse_cons]

theorem normalize_eq {p : Path} (h : p.isAbsolute = true) :
    p.normalize = { p with parts := p.parts.foldl enter [] } := by
  rw [normalize, h, normalizeParts_eq_foldl List.not_mem_nil, List.reverse_nil]

/-! ### Spellings with a slash in front -/

/-- Whether a spelling starts with exactly two slashes, which is another root than one slash. -/
def HasTwoSlashes (s : String) : Prop :=
  ['/', '/'] <+: s.toList ∧ ¬ ['/', '/', '/'] <+: s.toList

instance (s : String) : Decidable (HasTwoSlashes s) :=
  inferInstanceAs (Decidable (['/', '/'] <+: s.toList ∧ ¬ ['/', '/', '/'] <+: s.toList))

theorem isAbsolute_ofString_iff {s : String} :
    (ofString s).isAbsolute = true ↔ s.toList.head? = some '/' := by
  rw [ofString, isAbsolute, anchorOf.eq_def]
  split <;> simp_all [List.head?_eq_some_iff]

private theorem anchor_ofString_eq_twoSlashes_iff {s : String} :
    (ofString s).anchor = .twoSlashes ↔ HasTwoSlashes s := by
  rw [ofString, HasTwoSlashes, anchorOf.eq_def]
  split <;> simp_all [List.cons_prefix_iff]

private theorem anchor_ofString_eq_root {s : String} (h : s.toList.head? = some '/')
    (hs : ¬ HasTwoSlashes s) : (ofString s).anchor = .root := by
  have habs := isAbsolute_ofString_iff.mpr h
  rw [← anchor_ofString_eq_twoSlashes_iff] at hs
  rw [isAbsolute] at habs
  cases ha : (ofString s).anchor with
  | root => rfl
  | twoSlashes => exact absurd ha hs
  | here =>
    rw [ha] at habs
    cases habs

private theorem anchor_ofString_eq_here {s : String} (h : s.toList.head? ≠ some '/') :
    (ofString s).anchor = .here := by
  rw [ne_eq, ← isAbsolute_ofString_iff, isAbsolute] at h
  simpa using h

section Reached

variable {base name : String}

theorem isAbsolute_child (habs : base.toList.head? = some '/') (name : String) :
    ((ofString base).child name).isAbsolute = true :=
  isAbsolute_join (isAbsolute_ofString_iff.mpr habs) _

/-- **What is read from a directory** and normalized is the path to the place that it denotes. -/
theorem resolveIn_eq (habs : base.toList.head? = some '/') (hbase : ¬ HasTwoSlashes base)
    (hname : ¬ HasTwoSlashes name) :
    (ofString base).resolveIn name = ⟨.root, reached base name⟩ := by
  rw [resolveIn, normalize_eq (isAbsolute_child habs name), child, reached, follow_eq _ name]
  by_cases hs : name.toList.head? = some '/'
  · rw [join_of_isAbsolute (isAbsolute_ofString_iff.mpr hs), if_pos hs,
      anchor_ofString_eq_root hs hname]
  · rw [join, anchor_ofString_eq_here hs, if_neg hs, follow_eq [] base, List.foldl_append,
      anchor_ofString_eq_root habs hbase]

theorem locate_child (habs : base.toList.head? = some '/') (hbase : ¬ HasTwoSlashes base)
    (hname : ¬ HasTwoSlashes name) (here : Path) :
    here.locate ((ofString base).child name) = ⟨.root, reached base name⟩ := by
  rw [locate, join_of_isAbsolute (isAbsolute_child habs name), ← resolveIn,
    resolveIn_eq habs hbase hname]

end Reached

/-! ### Printed paths -/

/-- Whether the components of a path are such as spellings have. -/
def WellSpelled (p : Path) : Prop := ∀ w ∈ p.parts, w ≠ "" ∧ w ≠ "." ∧ '/' ∉ w.toList

theorem wellSpelled_ofString (s : String) : (ofString s).WellSpelled := by
  intro w hw
  obtain ⟨v, hv, rfl⟩ := List.mem_map.mp hw
  obtain ⟨hf, hv⟩ := List.mem_filter.mp hv
  simp only [bne_iff_ne, ne_eq, Bool.and_eq_true] at hv
  refine ⟨fun he => hv.1 (String.ofList_eq_empty_iff.mp he), fun hd => hv.2 ?_, ?_⟩
  · rw [← String.toList_ofList (l := v), hd]
    rfl
  · rw [String.toList_ofList]
    exact notMem_of_mem_fields hf

/-- A path without a name has no components. -/
theorem WellSpelled.parts_eq_nil {p : Path} (h : p.WellSpelled) (hn : p.name = "") :
    p.parts = [] := by
  refine (List.eq_nil_or_concat p.parts).resolve_right ?_
  rintro ⟨front, last, hp⟩
  rw [name, hp, List.concat_eq_append, List.getLastD_concat] at hn
  exact (h last (by simp [hp])).1 hn

theorem WellSpelled.join {p q : Path} (hp : p.WellSpelled) (hq : q.WellSpelled) :
    (p.join q).WellSpelled := by
  obtain ⟨anchor, parts⟩ := q
  cases anchor with
  | here => exact fun w hw => (List.mem_append.mp hw).elim (hp w) (hq w)
  | root | twoSlashes => exact hq

theorem WellSpelled.normalize {p : Path} (h : p.WellSpelled) (habs : p.isAbsolute = true) :
    p.normalize.WellSpelled := by
  intro w hw
  rw [Path.normalize, habs] at hw
  exact h w ((mem_normalizeParts List.not_mem_nil hw).2.resolve_left List.not_mem_nil)

/-- The components of a path, with slashes between them. -/
def spelledParts (p : Path) : List Char := ['/'].intercalate (p.parts.map String.toList)

theorem toList_toString (p : Path) : (toString p).toList =
    if p.anchor = .here ∧ p.parts = [] then ['.'] else p.anchor.text.toList ++ p.spelledParts := by
  change p.toString.toList = _
  rw [Path.toString, spelledParts]
  split
  · rfl
  · rw [String.toList_append, String.toList_intercalate]
    rfl

namespace WellSpelled

variable {p : Path}

private theorem fields_spelledParts (h : p.WellSpelled) (hne : p.parts ≠ []) :
    fields '/' p.spelledParts = p.parts.map String.toList := by
  refine fields_intercalate (fun v hv => ?_) (by simpa using hne)
  obtain ⟨w, hw, rfl⟩ := List.mem_map.mp hv
  exact (h w hw).2.2

/-- No slash comes before the first component. -/
private theorem head?_spelledParts (h : p.WellSpelled) : p.spelledParts.head? ≠ some '/' := by
  intro hs
  obtain ⟨r, hr⟩ := List.head?_eq_some_iff.mp hs
  have hne : p.parts ≠ [] := by
    intro hn
    simp [spelledParts, hn] at hr
  have hfields := h.fields_spelledParts hne
  rw [hr, ← List.nil_append ('/' :: r), fields_append_cons List.not_mem_nil] at hfields
  obtain ⟨w, hw, hnil⟩ := List.mem_map.mp (hfields ▸ List.mem_cons_self)
  exact (h w hw).1 (String.toList_eq_nil_iff.mp hnil)

private theorem partsOf_spelledParts (h : p.WellSpelled) : partsOf p.spelledParts = p.parts := by
  by_cases hne : p.parts = []
  · rw [spelledParts, hne]
    rfl
  · have hkeep : (p.parts.map String.toList).filter (fun w => w != [] && w != ['.']) =
        p.parts.map String.toList := by
      rw [List.filter_eq_self]
      intro v hv
      obtain ⟨w, hw, rfl⟩ := List.mem_map.mp hv
      have hnil : w.toList ≠ [] := fun hn => (h w hw).1 (String.toList_eq_nil_iff.mp hn)
      have hdot : w.toList ≠ ['.'] := fun hd => (h w hw).2.1 (String.toList_inj.mp hd)
      simp [hnil, hdot]
    rw [partsOf, h.fields_spelledParts hne, hkeep, List.map_map]
    simp

end WellSpelled

private theorem partsOf_slash (s : List Char) : partsOf ('/' :: s) = partsOf s := by
  rw [partsOf, ← List.nil_append ('/' :: s), fields_append_cons List.not_mem_nil]
  rfl

/-- The slashes in front of a spelling are its anchor. -/
private theorem anchorOf_text_append (anchor : Anchor) {s : List Char} (h : s.head? ≠ some '/') :
    anchorOf (anchor.text.toList ++ s) = anchor := by
  cases s with
  | nil => cases anchor <;> rfl
  | cons c s =>
    have hc : c ≠ '/' := by simpa using h
    cases anchor <;> simp [Anchor.text, anchorOf, hc]

private theorem partsOf_text_append (anchor : Anchor) (s : List Char) :
    partsOf (anchor.text.toList ++ s) = partsOf s := by
  cases anchor with
  | here => rfl
  | root => exact partsOf_slash s
  | twoSlashes => exact (partsOf_slash ('/' :: s)).trans (partsOf_slash s)

/-- **A path prints a spelling of itself.** -/
theorem ofString_toString {p : Path} (h : p.WellSpelled) : ofString (toString p) = p := by
  rw [ofString, toList_toString]
  split
  · next he =>
    obtain ⟨anchor, parts⟩ := p
    obtain ⟨rfl, rfl⟩ := he
    rfl
  · rw [anchorOf_text_append p.anchor h.head?_spelledParts, partsOf_text_append,
      h.partsOf_spelledParts]

end Galley.Path
