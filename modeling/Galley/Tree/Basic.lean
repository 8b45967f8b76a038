import Std.Data.ExtTreeMap

/-!
# Trees

A tree holds the directories and files of a disk. A node stands at a **place**, the names that
lead to it from the root, and every node stands in a directory, which is part of the type. Two
trees with the same nodes at the same places are equal (`Tree.ext_node?`).

The three changes are `put`, `erase` and `prune`; each is described by what it does to `node?`.
-/

namespace Galley

/-- The names that lead from the root to a node. -/
abbrev Place := List String

/-- What stands at a place. -/
inductive Node where
  | directory
  | file (content : List UInt8) (executable : Bool)
  deriving DecidableEq, Repr

/-- The directories and files below the root. -/
structure Tree where
  nodes : Std.ExtTreeMap Place Node
  /-- The root is a directory without an entry of its own. -/
  nil_notMem : [] ∉ nodes
  /-- Every node stands in a directory. -/
  in_directory : ∀ (place : Place) (name : String), place ++ [name] ∈ nodes →
    place = [] ∨ nodes[place]? = some .directory

namespace Tree

/-- The node at a place. -/
def node? (t : Tree) (place : Place) : Option Node :=
  if place = [] then some .directory else t.nodes[place]?

/-- The tree that is a bare root. -/
def empty : Tree where
  nodes := ∅
  nil_notMem := by simp
  in_directory := by simp

instance : EmptyCollection Tree := ⟨empty⟩

theorem node?_nil (t : Tree) : t.node? [] = some .directory := rfl

/-- Trees with the same nodes are equal. -/
@[ext]
theorem ext_node? {t u : Tree} (h : ∀ place, t.node? place = u.node? place) : t = u := by
  obtain ⟨tn, ht, _⟩ := t
  obtain ⟨un, hu, _⟩ := u
  congr 1
  refine Std.ExtTreeMap.ext_getElem? fun place => ?_
  by_cases hp : place = []
  · subst hp
    rw [Std.ExtTreeMap.getElem?_eq_none ht, Std.ExtTreeMap.getElem?_eq_none hu]
  · simpa only [node?, if_neg hp] using h place

/-- What stands above a node is a directory. -/
theorem node?_of_append {t : Tree} {place : Place} {name : String} {node : Node}
    (h : t.node? (place ++ [name]) = some node) : t.node? place = some .directory := by
  rw [node?, if_neg (by simp)] at h
  rcases t.in_directory place name (Std.ExtTreeMap.mem_iff_isSome_getElem?.mpr (by simp [h])) with
    hp | hp
  · rw [hp, node?_nil]
  · rw [node?]
    split
    · rfl
    · exact hp

/-! ### Changes -/

/-- Puts a node into a directory, in place of a file if there is one. -/
def put (t : Tree) (place : Place) (name : String) (node : Node)
    (hd : t.node? place = some .directory)
    (hn : t.node? (place ++ [name]) = some .directory → node = .directory) : Tree where
  nodes := t.nodes.insert (place ++ [name]) node
  nil_notMem := by
    rw [Std.ExtTreeMap.mem_insert]
    simpa using t.nil_notMem
  in_directory := by
    intro above last h
    rw [Std.ExtTreeMap.mem_insert, Std.LawfulEqCmp.compare_eq_iff_eq] at h
    rw [Std.ExtTreeMap.getElem?_insert]
    by_cases ha : above = []
    · exact .inl ha
    · right
      have old : t.nodes[above]? = some .directory := by
        rcases h with h | h
        · obtain ⟨rfl, -⟩ := List.append_inj' h rfl
          simpa only [node?, if_neg ha] using hd
        · exact (t.in_directory above last h).resolve_left ha
      split
      · next heq =>
        rw [Std.LawfulEqCmp.compare_eq_iff_eq] at heq
        subst heq
        rw [hn (by simpa only [node?, if_neg ha] using old)]
      · exact old

@[simp]
theorem node?_put {t : Tree} {place : Place} {name : String} {node : Node}
    (hd : t.node? place = some .directory)
    (hn : t.node? (place ++ [name]) = some .directory → node = .directory) (q : Place) :
    (t.put place name node hd hn).node? q =
      if q = place ++ [name] then some node else t.node? q := by
  simp only [node?, put, Std.ExtTreeMap.getElem?_insert, Std.LawfulEqCmp.compare_eq_iff_eq]
  by_cases hq : q = place ++ [name]
  · subst hq
    simp
  · simp only [if_neg hq, if_neg (Ne.symm hq)]

/-- Takes a file away, if one stands there. -/
def erase (t : Tree) (place : Place) (h : t.node? place ≠ some .directory) : Tree where
  nodes := t.nodes.erase place
  nil_notMem := by
    rw [Std.ExtTreeMap.mem_erase]
    exact fun hm => t.nil_notMem hm.2
  in_directory := by
    intro above last hm
    rw [Std.ExtTreeMap.mem_erase] at hm
    rw [Std.ExtTreeMap.getElem?_erase]
    refine (t.in_directory above last hm.2).imp_right fun hd => ?_
    split
    · next heq =>
      rw [Std.LawfulEqCmp.compare_eq_iff_eq] at heq
      subst heq
      refine absurd ?_ h
      rw [node?]
      split
      · rfl
      · exact hd
    · exact hd

@[simp]
theorem node?_erase {t : Tree} {place : Place} (h : t.node? place ≠ some .directory) (q : Place) :
    (t.erase place h).node? q = if q = place then none else t.node? q := by
  simp only [node?, erase, Std.ExtTreeMap.getElem?_erase, Std.LawfulEqCmp.compare_eq_iff_eq]
  by_cases hq : q = place
  · subst hq
    have : q ≠ [] := fun hn => h (by rw [hn, node?_nil])
    simp [this]
  · simp only [if_neg hq, if_neg (Ne.symm hq)]

/-- Takes away the node at a place and everything below it. The root itself stays. -/
def prune (t : Tree) (place : Place) : Tree where
  nodes := t.nodes.filter fun q _ => !place.isPrefixOf q
  nil_notMem hm := t.nil_notMem (Std.ExtTreeMap.mem_of_mem_filter hm)
  in_directory := by
    intro above last hm
    have hkeep : place.isPrefixOf (above ++ [last]) = false := by
      obtain ⟨_, hf⟩ := Std.ExtTreeMap.mem_filter.mp hm
      simpa using hf
    refine (t.in_directory above last (Std.ExtTreeMap.mem_of_mem_filter hm)).imp_right fun hd => ?_
    have hnot : place.isPrefixOf above = false := by
      rw [← Bool.not_eq_true, List.isPrefixOf_iff_prefix] at hkeep ⊢
      exact fun hp => hkeep (hp.trans (List.prefix_append above [last]))
    rw [Std.ExtTreeMap.getElem?_filter', hd]
    simp [hnot]

@[simp]
theorem node?_prune (t : Tree) (place q : Place) :
    (t.prune place).node? q =
      if q ≠ [] ∧ place <+: q then none else t.node? q := by
  simp only [node?, prune, Std.ExtTreeMap.getElem?_filter']
  by_cases hq : q = []
  · simp [hq]
  · by_cases hp : place <+: q
    · simp [hq, hp]
    · have : place.isPrefixOf q = false := by
        rw [← Bool.not_eq_true, List.isPrefixOf_iff_prefix]
        exact hp
      cases t.nodes[q]? <;> simp [hq, hp, this]

end Tree

end Galley
