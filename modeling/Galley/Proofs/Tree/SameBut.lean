import Galley.Host
import Galley.Proofs.Cleanup

/-!
# Trees that are the same but for some files

Two trees are the same **but for** the places of `stale` if nothing stands elsewhere in one of
them only, and what stands at those places is a file, no program, or nothing (`Tree.SameBut`). No
path leads through a file, so paths lead to the same places in both trees, and whatever does not
look at those places does the same in both. Changes keep the trees the same but for them, provided
none of them is made a directory: that depends on whether a file stands there.
-/

namespace Galley

namespace Tree

variable {t u : Tree} {here p : Path}

/-- What is nothing, or a file that is no program. -/
def Stray (node : Option Node) : Prop := node = none ∨ ∃ content, node = some (.file content false)

/-- Whether two trees are the same but for files, no programs, at some places. -/
def SameBut (t u : Tree) (stale : Place → Prop) : Prop :=
  ∀ q, t.node? q = u.node? q ∨ stale q ∧ Stray (t.node? q) ∧ Stray (u.node? q)

variable {stale : Place → Prop}

private theorem Stray.ne_directory {node : Option Node} (h : Stray node) : node ≠ some .directory :=
    by
  rintro rfl
  obtain h | ⟨content, h⟩ := h <;> cases h

private theorem SameBut.node?_eq (h : t.SameBut u stale) {q : Place} (hq : ¬ stale q) :
    t.node? q = u.node? q :=
  (h q).resolve_right fun hs => hq hs.1

theorem SameBut.eq_of_node? {q : Place} (h : t.SameBut u (· = q))
    (hq : t.node? q = u.node? q) : t = u := by
  refine ext_node? fun r => ?_
  obtain heq | ⟨rfl, -⟩ := h r
  · exact heq
  · exact hq

/-- Without the files at the places the trees are equal. -/
theorem SameBut.eq_of_less (h : t.SameBut u stale) {t' u' : Tree}
    (ht : t.Less t' fun q => stale q ∧ t.IsFile q) (hu : u.Less u' fun q => stale q ∧ u.IsFile q) :
    t' = u' := by
  have hstray {v v' : Tree} (hv : v.Less v' fun q => stale q ∧ v.IsFile q) {q : Place}
      (hq : stale q) (hs : Stray (v.node? q)) : v'.node? q = none := by
    obtain hn | ⟨content, hn⟩ := hs
    · rw [(hv q).2, hn]
      rintro ⟨-, content, executable, hf⟩
      rw [hn] at hf
      cases hf
    · exact (hv q).1 ⟨hq, content, false, hn⟩
  refine ext_node? fun q => ?_
  obtain heq | ⟨hq, hst, hsu⟩ := h q
  · have hgone : (stale q ∧ t.IsFile q) ↔ (stale q ∧ u.IsFile q) := by rw [IsFile, IsFile, heq]
    by_cases hq : stale q ∧ t.IsFile q
    · rw [(ht q).1 hq, (hu q).1 (hgone.mp hq)]
    · rw [(ht q).2 hq, (hu q).2 (mt hgone.mpr hq), heq]
  · rw [hstray ht hq hst, hstray hu hq hsu]

/-- In place of a file there may be another one, or nothing. -/
theorem exists_sameBut {q : Place} {content : List UInt8}
    (hf : t.node? q = some (.file content false)) {node : Option Node} (hn : Stray node) :
    ∃ u, t.SameBut u (· = q) ∧ u.node? q = node := by
  have hold : Stray (t.node? q) := .inr ⟨content, hf⟩
  have changed {u : Tree} (h : ∀ r, u.node? r = if r = q then node else t.node? r) :
      t.SameBut u (· = q) ∧ u.node? q = node := by
    have hself : u.node? q = node := by rw [h, if_pos rfl]
    refine ⟨fun r => ?_, hself⟩
    by_cases hr : r = q
    · subst hr
      exact .inr ⟨rfl, hold, hself ▸ hn⟩
    · exact .inl (by rw [h, if_neg hr])
  obtain rfl | ⟨content', rfl⟩ := hn
  · exact ⟨t.erase q hold.ne_directory, changed fun r => node?_erase _ r⟩
  · have hne : q ≠ [] := by
      rintro rfl
      cases (node?_nil t).symm.trans hf
    obtain ⟨d, name, hq⟩ := (List.eq_nil_or_concat q).resolve_left hne
    rw [List.concat_eq_append] at hq
    subst hq
    have hd := node?_of_append hf
    refine ⟨t.put d name (.file content' false) hd fun h => absurd h hold.ne_directory, ?_⟩
    exact changed fun r => node?_put _ _ r

/-- The directories are the same. -/
theorem SameBut.directory_iff (h : t.SameBut u stale) (q : Place) :
    t.node? q = some .directory ↔ u.node? q = some .directory := by
  obtain heq | ⟨-, ht, hu⟩ := h q
  · rw [heq]
  · exact iff_of_false ht.ne_directory hu.ne_directory

/-- Paths lead to the same places. -/
theorem SameBut.place_eq_ok (h : t.SameBut u stale) {q : Place} :
    t.place here p = .ok q ↔ u.place here p = .ok q :=
  walk_eq_ok_congr fun q => h.directory_iff q

/-! ### Looking -/

namespace SameBut

/-- Where a path does not lead to one of the places, the same nodes are found. -/
theorem found_iff (h : t.SameBut u stale) (hp : ∀ q, t.place here p = .ok q → ¬ stale q)
    {q : Place} {node : Node} :
    t.place here p = .ok q ∧ t.node? q = some node ↔
      u.place here p = .ok q ∧ u.node? q = some node := by
  constructor
  · rintro ⟨hq, hn⟩
    exact ⟨h.place_eq_ok.mp hq, (h.node?_eq (hp q hq)) ▸ hn⟩
  · rintro ⟨hq, hn⟩
    have hq' := h.place_eq_ok.mpr hq
    exact ⟨hq', (h.node?_eq (hp q hq')).symm ▸ hn⟩

theorem contains_eq (h : t.SameBut u stale) (hp : ∀ q, t.place here p = .ok q → ¬ stale q) :
    t.contains here p = u.contains here p := by
  rw [Bool.eq_iff_iff, contains_eq_true_iff, contains_eq_true_iff]
  simp only [h.found_iff hp]

theorem read_eq_ok_iff (h : t.SameBut u stale) (hp : ∀ q, t.place here p = .ok q → ¬ stale q)
    {content : List UInt8} : t.read here p = .ok content ↔ u.read here p = .ok content := by
  rw [Tree.read_eq_ok_iff, Tree.read_eq_ok_iff]
  simp only [h.found_iff hp]

/-- What is there is read alike. -/
theorem read_eq (h : t.SameBut u stale) (hp : ∀ q, t.place here p = .ok q → ¬ stale q)
    (hc : u.contains here p = true) : t.read here p = u.read here p := by
  obtain ⟨q, node, hq, hn⟩ := contains_eq_true_iff.mp hc
  rw [Tree.read, Tree.read, find_eq_ok.mpr ⟨hq, hn⟩,
    find_eq_ok.mpr ((h.found_iff hp).mpr ⟨hq, hn⟩)]

private theorem isDirectory_eq (h : t.SameBut u stale) (here p : Path) :
    t.isDirectory here p = u.isDirectory here p := by
  rw [Bool.eq_iff_iff, isDirectory_eq_true_iff, isDirectory_eq_true_iff]
  simp only [h.place_eq_ok, h.directory_iff]

/-- No program stands at one of the places. -/
theorem isProgram_eq (h : t.SameBut u stale) (here p : Path) :
    t.isProgram here p = u.isProgram here p := by
  have hprogram : ∀ q content, t.node? q = some (.file content true) ↔
      u.node? q = some (.file content true) := by
    have no_program {node : Option Node} (hn : Stray node) (content : List UInt8) :
        node ≠ some (.file content true) := by
      rintro rfl
      obtain hn | ⟨content', hn⟩ := hn <;> cases hn
    intro q content
    obtain heq | ⟨-, ht, hu⟩ := h q
    · rw [heq]
    · exact iff_of_false (no_program ht content) (no_program hu content)
  rw [Bool.eq_iff_iff, isProgram_eq_true_iff, isProgram_eq_true_iff]
  simp only [h.place_eq_ok, hprogram]

/-- The same programs are located. -/
theorem which_eq (h : t.SameBut u stale) (host : Host) : host.which t = host.which u := by
  have hprogram : host.isProgram t = host.isProgram u := by
    funext spelling
    rw [Host.isProgram, Host.isProgram, h.isProgram_eq]
  funext name
  rw [Host.which, Host.which, hprogram]

end SameBut

/-! ### Changing -/

/-- Whether two changes fail alike, or leave trees that are the same but for some files. -/
inductive ChangedAlike (stale : Place → Prop) {ε : Type} : Except ε Tree → Except ε Tree → Prop
  | ok {t u : Tree} (h : t.SameBut u stale) : ChangedAlike stale (.ok t) (.ok u)
  | error (e : ε) : ChangedAlike stale (.error e) (.error e)

private theorem ChangedAlike.mapError {ε ε' : Type} {x y : Except ε Tree}
    (h : ChangedAlike stale x y)
    (f : ε → ε') : ChangedAlike stale (x.mapError f) (y.mapError f) := by
  cases h with
  | ok h => exact .ok h
  | error e => exact .error (f e)

namespace SameBut

/-- Following names looks at the places in front of the last one alone. -/
private theorem walk_eq (h : t.SameBut u stale) {names : List String} {start : Place}
    (hn : ∀ q ∈ names.dropLast.scanl stepTo start, ¬ stale q) :
    t.walk start names = u.walk start names := by
  induction names generalizing start with
  | nil => rfl
  | cons name rest ih =>
    have hstart : t.node? start = u.node? start := by
      refine h.node?_eq (hn start ?_)
      cases hd : (name :: rest).dropLast <;> simp
    rw [walk, walk, hstart]
    split
    · rfl
    · rfl
    · cases rest with
      | nil => rfl
      | cons name' rest =>
        refine ih fun q hq => hn q ?_
        rw [List.dropLast_cons_cons, List.scanl_cons]
        exact List.mem_cons_of_mem _ hq

private theorem put (h : t.SameBut u stale) {place : Place} {name : String} {node : Node}
    (hd hn hd' hn') :
    (t.put place name node hd hn).SameBut (u.put place name node hd' hn') stale := by
  intro q
  rw [node?_put, node?_put]
  split
  · exact .inl rfl
  · exact h q

private theorem putAt (h : t.SameBut u stale) (place : Place) (node : Node) :
    ChangedAlike stale (t.putAt place node) (u.putAt place node) := by
  rw [Tree.putAt, Tree.putAt]
  by_cases hd : t.node? place.dropLast = some .directory
  · have hd' := (h.directory_iff _).mp hd
    rw [dif_pos hd, dif_pos hd']
    by_cases hn : place = [] ∨ t.node? (place.dropLast ++ [place.getLastD ""]) = some .directory
    · rw [dif_pos hn, dif_pos (hn.imp_right (h.directory_iff _).mp)]
      exact .error _
    · have hn' : ¬ (place = [] ∨
          u.node? (place.dropLast ++ [place.getLastD ""]) = some .directory) :=
        fun hu => hn (hu.imp_right (h.directory_iff _).mpr)
      rw [dif_neg hn, dif_neg hn']
      exact .ok (h.put _ _ _ _)
  · rw [dif_neg hd, dif_neg fun hu => hd ((h.directory_iff _).mpr hu)]
    exact .error _

private theorem place_eq (h : t.SameBut u stale) (hp : p.isAbsolute = true)
    (ht : ∀ q ∈ trail p.parent, ¬ stale q) : t.place here p = u.place here p := by
  rw [place, place, Path.join_of_isAbsolute hp]
  exact h.walk_eq ht

variable {anchor : Anchor}

private theorem makeDirectory (h : t.SameBut u stale) (hp : p.isAbsolute = true)
    (ht : ∀ q ∈ trail p, ¬ stale q) :
    ChangedAlike stale (t.makeDirectory here p) (u.makeDirectory here p) := by
  have hplace : t.place here p = u.place here p :=
    h.place_eq hp fun q hq => ht q (trail_mono (List.dropLast_prefix _) hq)
  rw [Tree.makeDirectory, Tree.makeDirectory, ← hplace]
  cases hq : t.place here p with
  | error fault => exact .error fault
  | ok q =>
    have hmem : q ∈ trail p := by
      rw [place, Path.join_of_isAbsolute hp] at hq
      exact mem_scanl_of_walk hq
    simp only [bind, Except.bind, ← h.node?_eq (ht q hmem)]
    split
    · exact .error _
    · exact h.putAt q _

private theorem makeDirectoriesAt (h : t.SameBut u stale) (ha : anchor ≠ .here)
    {names : List String} (ht : ∀ q ∈ trail ⟨anchor, names.reverse⟩, ¬ stale q) :
    ChangedAlike stale (t.makeDirectoriesAt here anchor names)
      (u.makeDirectoriesAt here anchor names) := by
  have habs : ∀ parts, (⟨anchor, parts⟩ : Path).isAbsolute = true :=
    fun _ => Path.isAbsolute_iff.mpr ha
  induction names with
  | nil => exact .ok h
  | cons name above ih =>
    have habove : ∀ q ∈ trail ⟨anchor, above.reverse⟩, ¬ stale q :=
      fun q hq => ht q (trail_mono (by simp) hq)
    -- a directory that is there already is there in both trees
    have settle {t' u' : Tree} (h' : t'.SameBut u' stale) (fault : Fault) :
        ChangedAlike stale
          (if t'.isDirectory here ⟨anchor, (name :: above).reverse⟩ then .ok t'
            else .error ⟨fault, toString (⟨anchor, (name :: above).reverse⟩ : Path)⟩)
          (if u'.isDirectory here ⟨anchor, (name :: above).reverse⟩ then .ok u'
            else .error (⟨fault, toString (⟨anchor, (name :: above).reverse⟩ : Path)⟩ :
              FileError)) := by
      rw [h'.isDirectory_eq]
      split
      · exact .ok h'
      · exact .error _
    have first : ChangedAlike stale (t.makeDirectory here _) _ :=
      h.makeDirectory (habs (name :: above).reverse) ht
    rw [Tree.makeDirectoriesAt, Tree.makeDirectoriesAt]
    generalize t.makeDirectory here ⟨anchor, (name :: above).reverse⟩ = x at first
    generalize u.makeDirectory here ⟨anchor, (name :: above).reverse⟩ = y at first
    cases first with
    | ok h' => exact .ok h'
    | error fault =>
      cases fault with
      | notFound =>
        have inner := ih habove
        generalize t.makeDirectoriesAt here anchor above = x' at inner
        generalize u.makeDirectoriesAt here anchor above = y' at inner
        cases inner with
        | error e => exact .error e
        | @ok t' u' h' =>
          have second : ChangedAlike stale (t'.makeDirectory here _) _ :=
            h'.makeDirectory (habs (name :: above).reverse) ht
          simp only [bind, Except.bind]
          generalize t'.makeDirectory here ⟨anchor, (name :: above).reverse⟩ = x'' at second
          generalize u'.makeDirectory here ⟨anchor, (name :: above).reverse⟩ = y'' at second
          cases second with
          | ok h'' => exact .ok h''
          | error fault => exact settle h' fault
      | _ => exact settle h _

private theorem makeDirectories (h : t.SameBut u stale) (hp : p.isAbsolute = true)
    (ht : ∀ q ∈ trail p, ¬ stale q) :
    ChangedAlike stale (t.makeDirectories here p) (u.makeDirectories here p) := by
  refine h.makeDirectoriesAt (Path.isAbsolute_iff.mp hp) ?_
  rwa [List.reverse_reverse]

/-- A file may be written at one of the places: it is no program afterwards either. -/
theorem write (h : t.SameBut u stale) (hp : p.isAbsolute = true)
    (ht : ∀ q ∈ trail p.parent, ¬ stale q) (content : List UInt8) :
    ChangedAlike stale (t.write here p content) (u.write here p content) := by
  rw [Tree.write, Tree.write, ← h.place_eq hp ht]
  refine ChangedAlike.mapError ?_ _
  cases t.place here p with
  | error fault => exact .error fault
  | ok q =>
    simp only [bind, Except.bind]
    obtain heq | ⟨-, ht | ⟨c, ht⟩, hu | ⟨c', hu⟩⟩ := h q
    · rw [← heq]
      split <;> exact h.putAt q _
    all_goals
      rw [ht, hu]
      exact h.putAt q _

theorem provide (h : t.SameBut u stale) (hp : p.isAbsolute = true) {content : Option (List UInt8)}
    (ht : ∀ q ∈ trail (if content = none then p else p.parent), ¬ stale q) :
    ChangedAlike stale (t.provide here p content) (u.provide here p content) := by
  cases content with
  | none => exact h.makeDirectories hp ht
  | some content =>
    rw [Tree.provide, Tree.provide]
    have hmade : ChangedAlike stale (t.makeDirectories here p.parent) _ :=
      h.makeDirectories hp ht
    simp only [bind, Except.bind]
    generalize t.makeDirectories here p.parent = x at hmade
    generalize u.makeDirectories here p.parent = y at hmade
    cases hmade with
    | error e => exact .error e
    | ok h' => exact h'.write hp ht content

end SameBut

/-- Taking away what a path leads to takes away what stands at its place and below. -/
theorem node?_removeAll {q : Place} (hq : t.place here p = .ok q) (r : Place) :
    (t.removeAll here p).node? r = if r ≠ [] ∧ q <+: r then none else t.node? r := by
  rw [removeAll, find, hq]
  cases hn : t.node? q with
  | some node => simp [bind, Except.bind, hn, pure, Except.pure]
  | none =>
    simp only [bind, Except.bind, hn]
    change t.node? r = _
    split
    · next hr =>
      obtain ⟨rest, rfl⟩ := hr.2
      by_cases hrest : rest = []
      · rw [hrest, List.append_nil, hn]
      · -- nothing stands below what is no directory
        cases hb : t.node? (q ++ rest) with
        | none => rfl
        | some node =>
          rw [node?_of_append_ne_nil hb hrest] at hn
          cases hn
    · rfl

theorem removeAll_eq_self {fault : Fault} (h : t.place here p = .error fault) :
    t.removeAll here p = t := by
  rw [removeAll, find, h]
  rfl

theorem SameBut.removeAll (h : t.SameBut u stale) (here p : Path) :
    (t.removeAll here p).SameBut (u.removeAll here p) stale := by
  cases hq : t.place here p with
  | ok q =>
    intro r
    rw [node?_removeAll hq, node?_removeAll (h.place_eq_ok.mp hq)]
    split
    · exact .inl rfl
    · exact h r
  | error fault =>
    cases hq' : u.place here p with
    | ok q => rw [h.place_eq_ok.mpr hq'] at hq; cases hq
    | error fault' => rwa [removeAll_eq_self hq, removeAll_eq_self hq']

end Tree

end Galley
