import Galley.Proofs.Program.Script
import Galley.Proofs.Result

/-!
# What a scripted run leaves at a place

A scripted run takes things away first and writes files then. So what stands at a place behind it
was either decided by the run itself, which took it away or wrote a file there
(`ScriptedRun.Settles`), or it stood there before. In the first case the run leaves the same tree
whatever stood there (`ScriptedRun.act_eq_of_settles`), in the second one it leaves just that
(`ScriptedRun.node?_act_of_not_settles`).
-/

namespace Galley

variable {t u v : Tree} {here dir p : Path} {q : Place}

/-! ### What a change leaves elsewhere -/

namespace Tree

private theorem node?_putAt {place : Place} {node : Node} (h : t.putAt place node = .ok u)
    (r : Place) : u.node? r = if r = place then some node else t.node? r := by
  rw [putAt] at h
  split at h
  · split at h
    · cases h
    · next hn =>
      have hplace : place.dropLast ++ [place.getLastD ""] = place := by
        obtain ⟨front, last, hp⟩ := (List.eq_nil_or_concat place).resolve_left (not_or.mp hn).1
        rw [hp, List.concat_eq_append, List.dropLast_concat, List.getLastD_concat]
      cases h
      rw [node?_put, hplace]
  · cases h

private theorem node?_makeDirectory (hp : p.isAbsolute = true) (hq : q ∉ trail p)
    (h : t.makeDirectory here p = .ok u) : u.node? q = t.node? q := by
  obtain ⟨place, hplace, h⟩ := exists_of_bind_eq_ok h
  rw [Tree.place, Path.join_of_isAbsolute hp] at hplace
  have hne : q ≠ place := by
    rintro rfl
    exact hq (mem_scanl_of_walk hplace)
  split at h
  · cases h
  · rw [node?_putAt h, if_neg hne]

/-- Directories are made along their path alone. -/
private theorem node?_makeDirectoriesAt {anchor : Anchor} (ha : anchor ≠ .here)
    {names : List String} (hq : q ∉ trail ⟨anchor, names.reverse⟩)
    (h : t.makeDirectoriesAt here anchor names = .ok u) : u.node? q = t.node? q := by
  have habs : ∀ parts, (⟨anchor, parts⟩ : Path).isAbsolute = true :=
    fun _ => Path.isAbsolute_iff.mpr ha
  induction names generalizing u with
  | nil =>
    cases h
    rfl
  | cons name above ih =>
    have settle {t' : Tree} {fault : Fault}
        (h : (if t'.isDirectory here ⟨anchor, (name :: above).reverse⟩ then .ok t' else
          .error ⟨fault, toString (⟨anchor, (name :: above).reverse⟩ : Path)⟩ :
            Except FileError Tree) = .ok u) : u = t' := by
      split at h <;> cases h
      rfl
    rw [makeDirectoriesAt] at h
    cases hm : t.makeDirectory here ⟨anchor, (name :: above).reverse⟩ with
    | ok t' =>
      simp only [hm] at h
      cases h
      exact node?_makeDirectory (habs _) hq hm
    | error fault =>
      simp only [hm] at h
      cases fault with
      | notFound =>
        obtain ⟨t', ha, h⟩ := exists_of_bind_eq_ok h
        have habove := ih (fun hq' => hq (trail_mono (by simp) hq')) ha
        cases hm' : t'.makeDirectory here ⟨anchor, (name :: above).reverse⟩ with
        | ok t'' =>
          simp only [hm'] at h
          cases h
          rw [node?_makeDirectory (habs _) hq hm', habove]
        | error fault =>
          simp only [hm'] at h
          rw [settle h, habove]
      | _ => rw [settle h]

private theorem node?_makeDirectories (hp : p.isAbsolute = true) (hq : q ∉ trail p)
    (h : t.makeDirectories here p = .ok u) : u.node? q = t.node? q := by
  refine node?_makeDirectoriesAt (Path.isAbsolute_iff.mp hp) ?_ h
  rwa [List.reverse_reverse]

/-- A write puts a file where its path leads, a program only where one stood. -/
theorem node?_write (hp : p.isAbsolute = true) {content : List UInt8}
    (h : t.write here p content = .ok u) :
    (p.normalize.parts ≠ q → u.node? q = t.node? q) ∧
      (p.normalize.parts = q → Stray (t.node? q) → u.node? q = some (.file content false)) := by
  obtain ⟨place, hplace, h⟩ := exists_of_bind_eq_ok (eq_ok_of_mapError h)
  rw [normalize_of_place hp hplace]
  constructor
  · intro hne
    split at h <;> rw [node?_putAt h, if_neg hne.symm]
  · rintro rfl (hs | ⟨before, hs⟩) <;> rw [hs] at h <;> rw [node?_putAt h, if_pos rfl]

private theorem node?_provide (hp : p.isAbsolute = true) {content : Option (List UInt8)}
    (hq : q ∉ trail (if content = none then p else p.parent))
    (h : t.provide here p content = .ok u) :
    (content = none ∨ p.normalize.parts ≠ q → u.node? q = t.node? q) ∧
      (content ≠ none → p.normalize.parts = q → Stray (t.node? q) →
        ∃ c, content = some c ∧ u.node? q = some (.file c false)) := by
  cases content with
  | none => exact ⟨fun _ => node?_makeDirectories hp hq h, fun hn => absurd rfl hn⟩
  | some c =>
    obtain ⟨t', hm, h⟩ := exists_of_bind_eq_ok h
    have hmade := node?_makeDirectories (p := p.parent) hp hq hm
    obtain ⟨hother, hself⟩ := node?_write (q := q) hp h
    rw [hmade] at hother hself
    exact ⟨fun hne => hother (hne.resolve_left nofun), fun _ he hs => ⟨c, rfl, hself he hs⟩⟩

end Tree

/-! ### What a run leaves -/

namespace ScriptedRun

variable {r : ScriptedRun}

/-- Whether files are written at a place. -/
def Writes (dir : Path) (q : Place) (writes : List (Path × Option (List UInt8))) : Prop :=
  ∃ w ∈ writes, w.2 ≠ none ∧ (dir.join w.1).normalize.parts = q

/-- Whether a run in a directory decides what stands at a place where something stands: it takes
that away, or it writes a file there. -/
def Settles (r : ScriptedRun) (dir : Path) (t : Tree) (q : Place) : Prop :=
  (r.afterDeleting dir t).node? q = none ∨ Writes dir q r.written

/-- What stood at the place is taken away in both trees, or it is left in both. -/
private theorem node?_afterDeleting (r : ScriptedRun) (dir : Path) (h : t.SameBut u (· = q)) :
    (r.afterDeleting dir t).node? q = none ∧ (r.afterDeleting dir u).node? q = none ∨
      (r.afterDeleting dir t).node? q = t.node? q ∧
        (r.afterDeleting dir u).node? q = u.node? q := by
  rw [afterDeleting, afterDeleting]
  generalize r.deleted = paths
  induction paths generalizing t u with
  | nil => exact .inr ⟨rfl, rfl⟩
  | cons p rest ih =>
    have hfirst : (t.removeAll dir p).node? q = none ∧ (u.removeAll dir p).node? q = none ∨
        (t.removeAll dir p).node? q = t.node? q ∧ (u.removeAll dir p).node? q = u.node? q := by
      cases hp : t.place dir p with
      | ok place =>
        rw [Tree.node?_removeAll hp, Tree.node?_removeAll (h.place_eq_ok.mp hp)]
        split
        · exact .inl ⟨rfl, rfl⟩
        · exact .inr ⟨rfl, rfl⟩
      | error fault =>
        cases hp' : u.place dir p with
        | ok place =>
          rw [h.place_eq_ok.mpr hp'] at hp
          cases hp
        | error fault' =>
          rw [Tree.removeAll_eq_self hp, Tree.removeAll_eq_self hp']
          exact .inr ⟨rfl, rfl⟩
    rw [List.foldl_cons, List.foldl_cons]
    obtain hrest | ⟨ht, hu⟩ := ih (h.removeAll dir p)
    · exact .inl hrest
    · rwa [ht, hu]

/-- Where no file is written, what stood there is left. -/
private theorem node?_writeAll (hd : dir.isAbsolute = true)
    {writes : List (Path × Option (List UInt8))}
    (hs : ∀ w ∈ writes, ∀ r ∈ Tree.trail (needed dir w.1 w.2), r ≠ q) (hn : ¬ Writes dir q writes)
    (h : writeAll dir t writes = (u, none)) : u.node? q = t.node? q := by
  induction writes generalizing t with
  | nil =>
    cases h
    rfl
  | cons w rest ih =>
    obtain ⟨p, content⟩ := w
    obtain ⟨hfirst, hrest⟩ := List.forall_mem_cons.mp hs
    have hnone : ¬ Writes dir q rest := by
      rintro ⟨w, hw, hq⟩
      exact hn ⟨w, List.mem_cons_of_mem _ hw, hq⟩
    rw [writeAll] at h
    split at h
    · next t' hp =>
      have hother := (Tree.node?_provide (q := q) (Path.isAbsolute_join hd p)
        (fun hq => hfirst q hq rfl) hp).1
      rw [ih hrest hnone h]
      refine hother (or_iff_not_imp_left.mpr fun hc hq => hn ⟨_, List.mem_cons_self, hc, hq⟩)
    · cases h

/-- Where a file is written, it does not matter what stood there. -/
private theorem writeAll_eq (hd : dir.isAbsolute = true)
    {writes : List (Path × Option (List UInt8))}
    {t' u' : Tree} (hs : ∀ w ∈ writes, ∀ r ∈ Tree.trail (needed dir w.1 w.2), r ≠ q)
    (hw : Writes dir q writes) (h : t.SameBut u (· = q))
    (ht : writeAll dir t writes = (t', none)) (hu : writeAll dir u writes = (u', none)) :
    t' = u' := by
  obtain heq | ⟨-, hst, hsu⟩ := h q
  · obtain rfl := h.eq_of_node? heq
    cases ht.symm.trans hu
    rfl
  induction writes generalizing t u with
  | nil =>
    obtain ⟨w, hw, -⟩ := hw
    cases hw
  | cons w rest ih =>
    obtain ⟨p, content⟩ := w
    obtain ⟨hfirst, hrest⟩ := List.forall_mem_cons.mp hs
    have hp : (dir.join p).isAbsolute = true := Path.isAbsolute_join hd p
    have halike : Tree.ChangedAlike (· = q) (t.provide dir (dir.join p) content) _ :=
      h.provide hp hfirst
    rw [writeAll] at ht hu
    cases ht₁ : t.provide dir (dir.join p) content with
    | error e =>
      rw [ht₁] at ht
      cases ht
    | ok t₁ =>
      cases hu₁ : u.provide dir (dir.join p) content with
      | error e =>
        rw [hu₁] at hu
        cases hu
      | ok u₁ =>
        rw [ht₁, hu₁] at halike
        simp only [ht₁] at ht
        simp only [hu₁] at hu
        obtain ⟨hother, hself⟩ := Tree.node?_provide (q := q) hp (fun hq => hfirst q hq rfl) ht₁
        obtain ⟨hother', hself'⟩ := Tree.node?_provide (q := q) hp (fun hq => hfirst q hq rfl) hu₁
        cases halike with
        | ok h₁ =>
          by_cases hq : content ≠ none ∧ (dir.join p).normalize.parts = q
          · -- the same file is written in both trees
            obtain ⟨c, rfl, hn⟩ := hself hq.1 hq.2 hst
            obtain ⟨c', hc, hn'⟩ := hself' hq.1 hq.2 hsu
            cases hc
            obtain rfl := h₁.eq_of_node? (hn.trans hn'.symm)
            cases ht.symm.trans hu
            rfl
          · have hne : content = none ∨ (dir.join p).normalize.parts ≠ q :=
              (not_and_or.mp hq).imp_left not_not.mp
            obtain ⟨w, hw, hwq⟩ := hw
            obtain rfl | hw := List.mem_cons.mp hw
            · exact absurd hwq hq
            · exact ih hrest ⟨w, hw, hwq⟩ h₁ ht hu (hother hne ▸ hst) (hother' hne ▸ hsu)

private theorem writeAll_of_exited {status : Int} {output errors : List UInt8}
    (h : r.act dir t = (.exited status output errors, u)) :
    writeAll dir (r.afterDeleting dir t) r.written = (u, none) := by
  rw [act] at h
  split at h
  · next hw =>
    obtain ⟨-, rfl⟩ := Prod.mk.inj h
    exact hw
  · cases h

variable {status : Int} {output errors : List UInt8} {t' u' : Tree}

/-- **A run that settles what stands at a place** leaves the same tree whatever stood there. -/
theorem act_eq_of_settles (hd : dir.isAbsolute = true) (hs : r.Spares dir (· = q))
    (hset : r.Settles dir t q) (hq : t.node? q ≠ none) (h : t.SameBut u (· = q))
    (ht : r.act dir t = (.exited status output errors, t'))
    (hu : r.act dir u = (.exited status output errors, u')) : t' = u' := by
  have ht' := writeAll_of_exited ht
  have hu' := writeAll_of_exited hu
  have hdeleted : (r.afterDeleting dir t).SameBut _ (· = q) := r.afterDeleting_sameBut dir h
  obtain hnone | hw := hset
  · obtain ⟨-, hnone'⟩ | ⟨hkeep, -⟩ := node?_afterDeleting r dir h
    · rw [hdeleted.eq_of_node? (hnone.trans hnone'.symm)] at ht'
      cases ht'.symm.trans hu'
      rfl
    · exact absurd (hkeep.symm.trans hnone) hq
  · exact writeAll_eq hd hs hw hdeleted ht' hu'

/-- **A run that settles nothing there** leaves what stood there. -/
theorem node?_act_of_not_settles (hd : dir.isAbsolute = true) (hs : r.Spares dir (· = q))
    (hset : ¬ r.Settles dir t q) (h : t.SameBut u (· = q))
    (hu : r.act dir u = (.exited status output errors, u')) : u'.node? q = u.node? q := by
  obtain ⟨hkept, hw⟩ := not_or.mp hset
  rw [node?_writeAll hd hs hw (writeAll_of_exited hu)]
  obtain ⟨hnone, -⟩ | ⟨-, hkeep⟩ := node?_afterDeleting r dir h
  · exact absurd hnone hkept
  · exact hkeep

end ScriptedRun

end Galley
