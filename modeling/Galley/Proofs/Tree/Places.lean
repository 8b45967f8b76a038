import Galley.Proofs.Path.Spelling
import Galley.Tree.Files
import Mathlib.Data.List.Induction

/-!
# Where paths lead in a tree

The names of a path are followed one by one, and each is looked up in a directory
(`Tree.walk_cons_eq_ok`). So a tree decides whether a path leads anywhere, but not where: there is
no other place for it than that of its normal form (`Tree.normalize_of_place`). What is found at a
path is what stands at its place.
-/

namespace Galley.Tree

variable {t u : Tree} {here p : Path} {q : Place}

/-! ### Following names -/

/-- Where one name leads from a place. -/
def stepTo (q : Place) (name : String) : Place := if name = ".." then q.dropLast else q ++ [name]

/-- The places that a path leads through, its own included, if all of them are there. -/
def trail (p : Path) : List Place := p.parts.scanl stepTo []

theorem trail_mono {anchor : Anchor} {names names' : List String} (h : names <+: names')
    (hq : q ∈ trail ⟨anchor, names⟩) : q ∈ trail ⟨anchor, names'⟩ := by
  obtain ⟨rest, rfl⟩ := h
  rw [trail, List.scanl_append]
  exact List.mem_append_left _ hq

section Walk

variable {names : List String} {name : String} {start : Place}

private theorem walk_nil (t : Tree) (start : Place) : t.walk start [] = .ok start := rfl

/-- A name is looked up in a directory. -/
theorem walk_cons_eq_ok : t.walk start (name :: names) = .ok q ↔
    t.node? start = some .directory ∧ t.walk (stepTo start name) names = .ok q := by
  rw [walk]
  rcases t.node? start with _ | _ | _ <;> simp [stepTo]

private theorem walk_concat : t.walk start (names ++ [name]) = .ok q ↔
    ∃ d, t.walk start names = .ok d ∧ t.node? d = some .directory ∧ q = stepTo d name := by
  induction names generalizing start with
  | nil =>
    rw [List.nil_append, walk_cons_eq_ok]
    simp only [walk_nil, Except.ok.injEq, exists_eq_left', eq_comm (a := q)]
  | cons first rest ih =>
    simp only [List.cons_append, walk_cons_eq_ok, ih, and_assoc, exists_and_left]

/-- Names are followed through directories alone. -/
theorem walk_eq_ok_congr (h : ∀ q, u.node? q = some .directory ↔ t.node? q = some .directory) :
    u.walk start names = .ok q ↔ t.walk start names = .ok q := by
  induction names generalizing start with
  | nil => rw [walk_nil, walk_nil]
  | cons name rest ih => rw [walk_cons_eq_ok, walk_cons_eq_ok, h, ih]

private theorem foldl_of_walk (h : t.walk start names = .ok q) : names.foldl stepTo start = q := by
  induction names generalizing start with
  | nil => exact Except.ok.inj h
  | cons name rest ih => exact ih (walk_cons_eq_ok.mp h).2

theorem mem_scanl_of_walk (h : t.walk start names = .ok q) : q ∈ names.scanl stepTo start := by
  induction names generalizing start with
  | nil =>
    cases h
    simp
  | cons name rest ih =>
    rw [List.scanl_cons]
    exact List.mem_cons_of_mem _ (ih (walk_cons_eq_ok.mp h).2)

/-- Names lead to a place that ends in the last one, unless that is `..`. -/
theorem getLast?_of_walk (hn : name ≠ "..") (h : t.walk start (names ++ [name]) = .ok q) :
    q.getLast? = some name := by
  obtain ⟨d, -, -, rfl⟩ := walk_concat.mp h
  rw [stepTo, if_neg hn, List.getLast?_concat]

/-- What stands above a node, however far, is a directory. -/
theorem node?_of_append_ne_nil {q r : Place} {node : Node} (h : t.node? (q ++ r) = some node)
    (hr : r ≠ []) : t.node? q = some .directory := by
  induction r using List.reverseRecOn generalizing node with
  | nil => exact absurd rfl hr
  | append_singleton r name ih =>
    rw [← List.append_assoc] at h
    have hd := node?_of_append h
    by_cases hn : r = []
    · rwa [hn, List.append_nil] at hd
    · exact ih hd hn

private theorem walk_of_node? {node : Node} (hn : ".." ∉ names)
    (h : t.node? (start ++ names) = some node) : t.walk start names = .ok (start ++ names) := by
  induction names generalizing start with
  | nil => rw [walk_nil, List.append_nil]
  | cons name rest ih =>
    rw [List.mem_cons, not_or] at hn
    refine walk_cons_eq_ok.mpr ⟨node?_of_append_ne_nil h (List.cons_ne_nil _ _), ?_⟩
    have hsplit : start ++ name :: rest = start ++ [name] ++ rest := by simp
    rw [stepTo, if_neg (Ne.symm hn.1)]
    rw [hsplit] at h ⊢
    exact ih hn.2 h

end Walk

/-! ### The place of a path -/

/-- A path leads to the place of its normal form. -/
theorem normalize_of_place (hp : p.isAbsolute = true) (h : t.place here p = .ok q) :
    p.normalize.parts = q := by
  rw [place, Path.join_of_isAbsolute hp] at h
  rw [Path.normalize_eq hp]
  exact foldl_of_walk h

/-- A settled path leads nowhere but to its components. -/
theorem place_eq_of_settled (hp : p.Settled) (h : t.place here p = .ok q) : q = p.parts := by
  rw [← normalize_of_place hp.isAbsolute h, hp.normalize_eq]

theorem place_of_node? (hp : p.Settled) {node : Node} (h : t.node? p.parts = some node) :
    t.place here p = .ok p.parts := by
  rw [place, Path.join_of_isAbsolute hp.isAbsolute]
  exact walk_of_node? hp.no_up h

/-- A path leads to the same place when it is made absolute. -/
theorem place_join (h : here.isAbsolute = true) (t : Tree) (p : Path) :
    t.place here (here.join p) = t.place here p := by
  rw [place, place, Path.join_of_isAbsolute (Path.isAbsolute_join h p)]

/-- The normal form of a path that leads somewhere leads there too. -/
theorem place_normalize (hp : p.isAbsolute = true) {node : Node} (h : t.place here p = .ok q)
    (hn : t.node? q = some node) : t.place here p.normalize = .ok q := by
  have habs : p.normalize.isAbsolute = true := hp
  have hup : ".." ∉ p.normalize.parts := by
    intro hmem
    rw [Path.normalize, hp] at hmem
    exact (Path.mem_normalizeParts List.not_mem_nil hmem).1 rfl
  have hparts := normalize_of_place hp h
  rw [place, Path.join_of_isAbsolute habs, hparts]
  exact walk_of_node? (hparts ▸ hup) hn

/-- The place of a path, where there is one, does not depend on the tree. -/
theorem place_unique {r : Place} (h : t.place here p = .ok q) (h' : u.place here p = .ok r) :
    q = r :=
  (foldl_of_walk h).symm.trans (foldl_of_walk h')

/-- What is in a directory has a place if the directory is there. -/
theorem place_child {w : String} (hw : Path.IsName w) :
    t.place here (p.child w) = .ok q ↔ ∃ d, t.place here p = .ok d ∧
      t.node? d = some .directory ∧ q = d ++ [w] := by
  have hup : w ≠ ".." := by
    rintro rfl
    exact absurd hw.two_lt_length (by decide)
  have hparts : (here.join (p.child w)).parts = (here.join p).parts ++ [w] := by
    rw [Path.child_eq p hw]
    obtain ⟨_ | _ | _, parts⟩ := p
    · exact (List.append_assoc ..).symm
    · rfl
    · rfl
  rw [place, place, hparts, walk_concat]
  simp only [stepTo, if_neg hup]

/-! ### Looking -/

theorem find_eq_ok {node : Node} :
    t.find here p = .ok (q, node) ↔ t.place here p = .ok q ∧ t.node? q = some node := by
  rw [find]
  cases hp : t.place here p with
  | error fault => simp [bind, Except.bind]
  | ok q' =>
    cases hn : t.node? q' with
    | none =>
      simp only [bind, Except.bind, hn, throw, throwThe, MonadExceptOf.throw, Except.ok.injEq,
        reduceCtorEq, false_iff, not_and]
      rintro rfl
      simp [hn]
    | some node' =>
      simp only [bind, Except.bind, hn, pure, Except.pure, Except.ok.injEq, Prod.mk.injEq]
      constructor
      · rintro ⟨rfl, rfl⟩
        exact ⟨rfl, hn⟩
      · rintro ⟨rfl, hq⟩
        exact ⟨rfl, Option.some.inj (hn.symm.trans hq)⟩

theorem contains_eq_true_iff :
    t.contains here p = true ↔ ∃ q node, t.place here p = .ok q ∧ t.node? q = some node := by
  simp only [← find_eq_ok]
  rw [contains]
  cases t.find here p with
  | error fault => simp [Except.isOk, Except.toBool]
  | ok found => simpa [Except.isOk, Except.toBool] using ⟨found.1, found.2, rfl⟩

theorem read_eq_ok_iff {content : List UInt8} :
    t.read here p = .ok content ↔
      ∃ q x, t.place here p = .ok q ∧ t.node? q = some (.file content x) := by
  simp only [← find_eq_ok]
  rw [read]
  rcases t.find here p with fault | ⟨q, _ | ⟨content', x⟩⟩
  · simp
  · simp
  · simp

theorem isProgram_eq_true_iff :
    t.isProgram here p = true ↔
      ∃ q content, t.place here p = .ok q ∧ t.node? q = some (.file content true) := by
  simp only [← find_eq_ok]
  rw [isProgram]
  rcases t.find here p with fault | ⟨q, _ | ⟨content', _ | _⟩⟩ <;> simp

theorem isDirectory_eq_true_iff :
    t.isDirectory here p = true ↔
      ∃ q, t.place here p = .ok q ∧ t.node? q = some .directory := by
  simp only [← find_eq_ok]
  rw [isDirectory]
  rcases t.find here p with fault | ⟨q, _ | ⟨content', x⟩⟩ <;> simp

end Galley.Tree
