import Galley.Cleanup
import Galley.Proofs.Tree.Places

/-!
# What a cleanup removes

A cleanup takes the regular files away that are byproducts due for removal, and changes nothing
else: `run_less`. The byproducts are removed one after the other; a removal keeps every
directory, so it leads no path elsewhere, and what the later removals find is what stood there at
the start, less the files that are gone.
-/

namespace Galley

namespace Tree

variable {t u v : Tree}

/-- Whether a regular file stands at a place. -/
def IsFile (t : Tree) (q : Place) : Prop :=
  ∃ content executable, t.node? q = some (.file content executable)

/-- The tree `u` is `t` less what stands at the places of `gone`. -/
def Less (t u : Tree) (gone : Place → Prop) : Prop :=
  ∀ q, (gone q → u.node? q = none) ∧ (¬ gone q → u.node? q = t.node? q)

theorem Less.refl {gone : Place → Prop} (h : ∀ q, ¬ gone q) : t.Less t gone :=
  fun q => ⟨fun hq => absurd hq (h q), fun _ => rfl⟩

theorem Less.trans {gone gone' : Place → Prop} (h : t.Less u gone) (h' : u.Less v gone') :
    t.Less v fun q => gone q ∨ gone' q := by
  intro q
  refine ⟨fun hq => ?_, fun hq => ?_⟩
  · by_cases hg : gone' q
    · exact (h' q).1 hg
    · rw [(h' q).2 hg, (h q).1 (hq.resolve_right hg)]
  · rw [(h' q).2 fun hg => hq (.inr hg), (h q).2 fun hg => hq (.inl hg)]

theorem Less.congr {gone gone' : Place → Prop} (h : t.Less u gone) (hg : ∀ q, gone q ↔ gone' q) :
    t.Less u gone' :=
  fun q => ⟨fun hq => (h q).1 ((hg q).mpr hq), fun hq => (h q).2 fun hn => hq ((hg q).mp hn)⟩

theorem Less.unique {gone : Place → Prop} (hu : t.Less u gone) (hv : t.Less v gone) : u = v := by
  refine ext_node? fun q => ?_
  by_cases hq : gone q
  · rw [(hu q).1 hq, (hv q).1 hq]
  · rw [(hu q).2 hq, (hv q).2 hq]

/-! ### Files that are gone lead no path elsewhere -/

private theorem Less.node?_eq_directory {gone : Place → Prop} (h : t.Less u gone)
    (hf : ∀ q, gone q → t.IsFile q) (q : Place) :
    u.node? q = some .directory ↔ t.node? q = some .directory := by
  by_cases hq : gone q
  · -- what is gone was a file and is nothing now, and never a directory
    obtain ⟨content, executable, hn⟩ := hf q hq
    rw [(h q).1 hq, hn]
    simp
  · rw [(h q).2 hq]

theorem Less.place_eq_ok {gone : Place → Prop} (h : t.Less u gone)
    (hf : ∀ q, gone q → t.IsFile q) {here p : Path} {q : Place} :
    u.place here p = .ok q ↔ t.place here p = .ok q :=
  walk_eq_ok_congr (h.node?_eq_directory hf)

theorem Less.isFile {gone : Place → Prop} (h : t.Less u gone) {q : Place} :
    u.IsFile q ↔ t.IsFile q ∧ ¬ gone q := by
  by_cases hq : gone q
  · simp [IsFile, (h q).1 hq, hq]
  · simp [IsFile, (h q).2 hq, hq]

/-- A file that is not among those that are gone is still read. -/
theorem Less.read_eq_ok {gone : Place → Prop} (h : t.Less u gone) (hf : ∀ q, gone q → t.IsFile q)
    {here p : Path} (hp : ∀ q, t.place here p = .ok q → ¬ gone q) {content : List UInt8}
    (hr : t.read here p = .ok content) : u.read here p = .ok content := by
  rw [read_eq_ok_iff] at hr ⊢
  obtain ⟨q, executable, hq, hn⟩ := hr
  refine ⟨q, executable, (h.place_eq_ok hf).mpr hq, ?_⟩
  rw [(h q).2 (hp q hq), hn]

theorem isFile_of_node? {q : Place} (h : t.node? q ≠ none) (hd : t.node? q ≠ some .directory) :
    t.IsFile q := by
  cases hn : t.node? q with
  | none => exact absurd hn h
  | some node =>
    cases node with
    | directory => exact absurd hn hd
    | file content executable => exact ⟨content, executable, hn⟩

/-- What is removed is the regular file that a path leads to. -/
theorem exists_of_remove_eq_ok {here p : Path} (h : t.remove here p = .ok u) :
    ∃ q, t.place here p = .ok q ∧ t.IsFile q ∧
      ∀ r, u.node? r = if r = q then none else t.node? r := by
  rw [remove] at h
  cases hp : t.place here p with
  | error fault =>
    rw [hp] at h
    cases h
  | ok place =>
    simp only [hp] at h
    split at h
    · cases h
    · next hn =>
      split at h
      · cases h
      · next hd =>
        cases h
        exact ⟨place, rfl, isFile_of_node? hn hd, fun r => node?_erase hd r⟩

/-- Removing what a path leads to takes away a regular file. -/
theorem remove_eq_ok {here p : Path} (h : t.remove here p = .ok u) :
    t.Less u fun q => t.place here p = .ok q ∧ t.IsFile q := by
  obtain ⟨q, hp, hf, hu⟩ := exists_of_remove_eq_ok h
  intro r
  rw [hu]
  constructor
  · rintro ⟨hr, -⟩
    rw [if_pos (Except.ok.inj (hr.symm.trans hp))]
  · intro hr
    refine if_neg ?_
    rintro rfl
    exact hr ⟨hp, hf⟩

/-- Where removing fails there is no regular file. -/
theorem remove_eq_error {here p : Path} {e : FileError} (h : t.remove here p = .error e)
    (q : Place) : ¬ (t.place here p = .ok q ∧ t.IsFile q) := by
  rintro ⟨hp, content, executable, hn⟩
  rw [remove, hp] at h
  simp [hn] at h

end Tree

namespace Cleanup

variable {t u : Tree} {here base : Path}

/-- Whether a place is that of the regular file that is the byproduct of a suffix. -/
def IsByproduct (t : Tree) (here base : Path) (suffix : String) (q : Place) : Prop :=
  ∃ p, byproduct? base suffix = some p ∧ t.place here p = .ok q ∧ t.IsFile q

theorem byproduct?_eq_none_iff {suffix : String} :
    byproduct? base suffix = none ↔ base.parts = [] := by
  rw [byproduct?, Path.withName?]
  split <;> simp_all

/-- What is a byproduct in a tree with files gone was one before, and is not among them. -/
theorem isByproduct_of_less {gone : Place → Prop} (h : t.Less u gone)
    (hf : ∀ q, gone q → t.IsFile q) {suffix : String} {q : Place} :
    IsByproduct u here base suffix q ↔ IsByproduct t here base suffix q ∧ ¬ gone q := by
  simp only [IsByproduct, h.place_eq_ok hf, h.isFile]
  constructor
  · rintro ⟨p, hp, hq, hn, hg⟩
    exact ⟨⟨p, hp, hq, hn⟩, hg⟩
  · rintro ⟨⟨p, hp, hq, hn⟩, hg⟩
    exact ⟨p, hp, hq, hn, hg⟩

/-! ### Removing -/

/-- One removal gives the name of what it removes, or leaves the tree. -/
theorem removeByproduct_cases {suffix : String} {p : Path} (h : byproduct? base suffix = some p)
    (t : Tree) (here : Path) (past : List Note) :
    let d := (removeByproduct here base suffix).run past t
    d.result = .ok [p.name] ∧ t.remove here p = .ok d.state ∨
      d.result = .ok [] ∧ d.state = t ∧ ∃ e, t.remove here p = .error e := by
  simp only [removeByproduct, h, Work.run_bind_apply, Chore.tree, Work.run_liftM_apply,
    Work.look_apply]
  cases t.remove here p with
  | ok t' => exact .inl ⟨rfl, rfl⟩
  | error e => obtain ⟨_ | _, path⟩ := e <;> exact .inr ⟨rfl, rfl, _, rfl⟩

theorem removeByproduct_less (t : Tree) (here base : Path) (suffix : String) (past : List Note) :
    t.Less ((removeByproduct here base suffix).run past t).state
      (IsByproduct t here base suffix) := by
  cases hp : byproduct? base suffix with
  | none =>
    simp only [removeByproduct, hp, Work.run_throw_apply]
    refine .refl fun q h => ?_
    obtain ⟨p, hp', -⟩ := h
    rw [hp] at hp'
    cases hp'
  | some p =>
    have hg : ∀ q, (t.place here p = .ok q ∧ t.IsFile q) ↔ IsByproduct t here base suffix q := by
      intro q
      simp [IsByproduct, hp]
    obtain ⟨-, hr⟩ | ⟨-, hs, e, hr⟩ := removeByproduct_cases hp t here past
    · exact (Tree.remove_eq_ok hr).congr hg
    · rw [hs]
      exact .refl fun q hq => Tree.remove_eq_error hr q ((hg q).mpr hq)

/-- Removals in a row take away what is a byproduct at the start. -/
private theorem removeByproducts_less (t : Tree) (here base : Path) (suffixes removed : List String)
    (past : List Note) :
    t.Less (removeByproducts here base removed suffixes past t).state
      fun q => ∃ suffix ∈ suffixes, IsByproduct t here base suffix q := by
  induction suffixes generalizing t removed past with
  | nil => exact .refl (by simp)
  | cons suffix rest ih =>
    have hfirst := removeByproduct_less t here base suffix past
    rw [removeByproducts, Work.bind_apply]
    cases hr : ((removeByproduct here base suffix).run past t).result with
    | error e =>
      -- no byproduct has a name, so there is nothing to remove
      have hn : ∀ s, byproduct? base s = none := by
        cases hp : byproduct? base suffix with
        | none => exact fun s => byproduct?_eq_none_iff.mpr (byproduct?_eq_none_iff.mp hp)
        | some p =>
          obtain ⟨hok, -⟩ | ⟨hok, -⟩ := removeByproduct_cases hp t here past
          · cases hok.symm.trans hr
          · cases hok.symm.trans hr
      simp only [hr]
      exact hfirst.congr fun q => by simp [IsByproduct, hn]
    | ok names =>
      simp only [hr]
      -- the rest is removed from a smaller tree, whose byproducts are those of `t` but the first
      refine (hfirst.trans (ih _ (removed ++ names) _)).congr fun q => ?_
      have hrest : ∀ s, IsByproduct _ here base s q ↔
          IsByproduct t here base s q ∧ ¬ IsByproduct t here base suffix q :=
        fun s => isByproduct_of_less hfirst fun q ⟨p, _, _, hf⟩ => hf
      simp only [hrest, List.mem_cons, exists_eq_or_imp]
      constructor
      · rintro (h | ⟨s, hs, h, -⟩)
        · exact .inl h
        · exact .inr ⟨s, hs, h⟩
      · rintro (h | ⟨s, hs, h⟩)
        · exact .inl h
        · by_cases hq : IsByproduct t here base suffix q
          · exact .inl hq
          · exact .inr ⟨s, hs, h, hq⟩

/-! ### Which byproducts go -/

/-- Whether what the bibliography is made from is there. -/
def HasSource (t : Tree) (here base : Path) : Prop :=
  ∃ p, byproduct? base bibliographySourceSuffix = some p ∧ t.contains here p = true

/-- The suffixes of the byproducts that go: the bibliography if it can be made again, the logs
unless they are kept. -/
inductive Goes (bibliography kept : Prop) : String → Prop
  | out : Goes bibliography kept ".out"
  | aux : Goes bibliography kept ".aux"
  | bbl (h : bibliography) : Goes bibliography kept ".bbl"
  | log (h : ¬ kept) : Goes bibliography kept ".log"
  | blg (h : ¬ kept) : Goes bibliography kept ".blg"

theorem mem_dueSuffixes {c : Cleanup} {suffix : String} :
    suffix ∈ c.dueSuffixes t here base ↔
      Goes (HasSource t here base) (c.keepsLogs = true) suffix := by
  have hb : (byproduct? base bibliographySourceSuffix).any (t.contains here) = true ↔
      HasSource t here base := by
    rw [HasSource]
    cases byproduct? base bibliographySourceSuffix <;> simp
  constructor
  · intro h
    simp only [dueSuffixes, List.mem_append, auxiliarySuffixes, List.mem_cons, List.not_mem_nil,
      or_false] at h
    rcases h with ((rfl | rfl) | h) | h
    · exact .out
    · exact .aux
    · split at h
      · next hs =>
        obtain rfl := List.mem_singleton.mp h
        exact .bbl (hb.mp hs)
      · cases h
    · split at h
      · cases h
      · next hk =>
        simp only [logSuffixes, List.mem_cons, List.not_mem_nil, or_false] at h
        rcases h with rfl | rfl
        · exact .blg hk
        · exact .log hk
  · intro h
    cases h with
    | out | aux => simp [dueSuffixes, auxiliarySuffixes]
    | bbl h => simp [dueSuffixes, hb.mpr h, bibliographySuffix]
    | log h | blg h => simp [dueSuffixes, h, logSuffixes]

/-- A run removes what is due in a row, and forgets the document. -/
theorem run_eq {c : Cleanup} (hc : c.base = some base) (t : Tree) (here : Path)
    (past : List Note) :
    let d := removeByproducts here base [] (c.dueSuffixes t here base) past t
    (c.run here past t).result = (d.result.1, { c with base := none }) ∧
      (c.run here past t).state = d.state := by
  simp only [run, hc, Work.bind_apply, Chore.tree, Work.look_apply, List.append_nil]
  split <;> split <;> exact ⟨rfl, rfl⟩

theorem base_run (c : Cleanup) (here : Path) (past : List Note) (t : Tree) :
    (c.run here past t).result.2 = { c with base := none } := by
  cases hc : c.base with
  | none =>
    simp only [run, hc]
    rw [← hc]
    rfl
  | some base => rw [(run_eq hc t here past).1]

/-- **What a cleanup removes**: the regular files that are byproducts due for removal. -/
theorem run_less {c : Cleanup} (past : List Note) :
    t.Less (c.run here past t).state fun q => ∃ base, c.base = some base ∧ ∃ suffix,
      Goes (HasSource t here base) (c.keepsLogs = true) suffix ∧
        IsByproduct t here base suffix q := by
  cases hb : c.base with
  | none =>
    simp only [run, hb]
    exact .refl (by simp)
  | some base =>
    have hless := removeByproducts_less t here base (c.dueSuffixes t here base) [] past
    rw [(run_eq hb t here past).2]
    refine hless.congr fun q => ?_
    simp [mem_dueSuffixes]

end Cleanup

end Galley
