import Galley.Diagnostics
import Galley.Proofs.Tree.SameBut
import Galley.Proofs.Work.Agree

/-!
# Removing the logs of an earlier run

Behind `removeStaleLogs` no regular file stands where the logs of a document are
(`removeStaleLogs_less`), so trees that were the same but for the logs are equal then
(`agree_removeStaleLogs`). Nothing is seen of the removal but messages.
-/

namespace Galley

open Work

/-- Whether a place is that of one of the logs of a document. -/
def IsLog (target : Path) (q : Place) : Prop :=
  q = (texLogPath (target.sibling ".tex")).parts ∨ q = (bibtexLogPath (target.sibling ".tex")).parts

variable {t u t' u' : Tree} {here p target : Path}

/-! ### Where the logs are -/

theorem Path.Settled.getLast?_sibling (hp : p.Settled) {ending : String}
    (he : '/' ∉ ending.toList) (hl : 2 < ending.length) :
    (p.sibling ending).parts.getLast? = some (p.stem ++ ending) := by
  rw [Path.sibling_eq_beside hp.no_slash ⟨he, hl⟩, Path.beside, List.getLast?_concat]

theorem Path.Settled.not_isLog (ht : target.Settled) {q : Place} {name : String}
    (hq : q.getLast? = some name) (hn : name.toList.getLast? ≠ some 'g') : ¬ IsLog target q := by
  have htex : (target.sibling ".tex").Settled := ht.sibling (by decide) (by decide)
  have hlog {ending : String} (he : '/' ∉ ending.toList) (hl : 2 < ending.length)
      (hg : ∀ stem : String, (stem ++ ending).toList.getLast? = some 'g')
      (h : q = ((target.sibling ".tex").sibling ending).parts) : False := by
    rw [h, htex.getLast?_sibling he hl] at hq
    rw [← Option.some.inj hq] at hn
    exact hn (hg _)
  rintro (h | h)
  · exact hlog (by decide) (by decide) (by simp) h
  · exact hlog (by decide) (by decide) (by simp) h

/-- A document with a name has its logs next to it. -/
theorem Path.Settled.isLog_iff (ht : target.Settled) (hn : target.stem ≠ "") {q : Place} :
    IsLog target q ↔ q = (target.sibling ".log").parts ∨ q = (target.sibling ".blg").parts := by
  have hnext {ending : String} (he : '/' ∉ ending.toList) (hl : 2 < ending.length) :
      (target.sibling ".tex").sibling ending = target.sibling ending := by
    rw [Path.sibling_sibling_eq_beside ht.no_slash hn ⟨he, hl⟩,
      Path.sibling_eq_beside ht.no_slash ⟨he, hl⟩]
  rw [IsLog, texLogPath, bibtexLogPath, hnext (by decide) (by decide),
    hnext (by decide) (by decide)]

/-! ### Removal -/

/-- Removing a log takes away the regular file that its path leads to. -/
private theorem removeStaleLog_less (t : Tree) (here p : Path) (past : List Note) :
    t.Less (removeStaleLog here p past t).state fun q => t.place here p = .ok q ∧ t.IsFile q := by
  simp only [removeStaleLog, bind_apply, Chore.tree, look_apply]
  cases hr : t.remove here p with
  | ok t' => exact Tree.remove_eq_ok hr
  | error e =>
    have hs : t.Less t fun q => t.place here p = .ok q ∧ t.IsFile q :=
      .refl fun q hq => Tree.remove_eq_error hr q hq
    obtain ⟨_ | _, path⟩ := e <;> exact hs

/-- What goes are the regular files that the paths of the logs lead to. -/
theorem removeStaleLogs_less_place (t : Tree) (here tex : Path) (past : List Note) :
    t.Less (removeStaleLogs here tex past t).state fun q =>
      (t.place here (texLogPath tex) = .ok q ∨ t.place here (bibtexLogPath tex) = .ok q) ∧
        t.IsFile q := by
  have hfirst := removeStaleLog_less t here (texLogPath tex) past
  have hsecond := fun u past => removeStaleLog_less u here (bibtexLogPath tex) past
  simp only [removeStaleLogs, bind_apply]
  refine (hfirst.trans (hsecond _ _)).congr fun q => ?_
  rw [hfirst.isFile, hfirst.place_eq_ok fun q hq => hq.2]
  constructor
  · rintro (⟨hq, hf⟩ | ⟨hq, hf, -⟩)
    · exact ⟨.inl hq, hf⟩
    · exact ⟨.inr hq, hf⟩
  · rintro ⟨hq | hq, hf⟩
    · exact .inl ⟨hq, hf⟩
    · by_cases hg : t.place here (texLogPath tex) = .ok q ∧ t.IsFile q
      · exact .inl hg
      · exact .inr ⟨hq, hf, hg⟩

private theorem settled_texLogPath (ht : target.Settled) :
    (texLogPath (target.sibling ".tex")).Settled :=
  (ht.sibling (by decide) (by decide)).sibling (by decide) (by decide)

private theorem settled_bibtexLogPath (ht : target.Settled) :
    (bibtexLogPath (target.sibling ".tex")).Settled :=
  (ht.sibling (by decide) (by decide)).sibling (by decide) (by decide)

/-- **The logs are gone**, and nothing else is. -/
theorem removeStaleLogs_less (ht : target.Settled) (t : Tree) (here : Path) (past : List Note) :
    t.Less (removeStaleLogs here (target.sibling ".tex") past t).state
      fun q => IsLog target q ∧ t.IsFile q := by
  have hplace {p : Path} (hp : p.Settled) {q : Place} (hf : t.IsFile q) :
      t.place here p = .ok q ↔ q = p.parts := by
    refine ⟨Tree.place_eq_of_settled hp, ?_⟩
    rintro rfl
    obtain ⟨content, executable, hn⟩ := hf
    exact Tree.place_of_node? hp hn
  refine (removeStaleLogs_less_place t here (target.sibling ".tex") past).congr fun q => ?_
  refine and_congr_left fun hf => ?_
  rw [hplace (settled_texLogPath ht) hf, hplace (settled_bibtexLogPath ht) hf, IsLog]

theorem not_isFile_of_removed (ht : target.Settled) (t : Tree) (here : Path) (past : List Note)
    {q : Place} (hq : IsLog target q) :
    ¬ (removeStaleLogs here (target.sibling ".tex") past t).state.IsFile q := by
  rw [(removeStaleLogs_less ht t here past).isFile]
  exact fun h => h.2 ⟨hq, h.1⟩

private theorem seen_removeStaleLog (past : List Note) (t : Tree) :
    (removeStaleLog here p past t).events.filterMap Note.seen? = [] := by
  simp only [removeStaleLog, bind_apply, Chore.tree, look_apply]
  cases t.remove here p with
  | ok t' => rfl
  | error e => obtain ⟨_ | _, path⟩ := e <;> rfl

/-- Trees that were the same but for the logs are equal without them. -/
theorem agree_removeStaleLogs (ht : target.Settled) (h : t.SameBut u (IsLog target)) :
    Chore.Agree (removeStaleLogs here (target.sibling ".tex"))
      (removeStaleLogs here (target.sibling ".tex")) t u fun _ _ t' u' => t' = u' := by
  have unseen : ∀ past t, (removeStaleLogs here (target.sibling ".tex") past t).events.filterMap
      Note.seen? = [] := by
    intro past t
    simp only [removeStaleLogs, bind_apply, List.filterMap_append, seen_removeStaleLog,
      List.append_nil]
  intro past past' _
  refine ⟨Subsingleton.elim _ _, by rw [unseen, unseen], ?_⟩
  exact h.eq_of_less (removeStaleLogs_less ht t here past) (removeStaleLogs_less ht u here past')

end Galley
