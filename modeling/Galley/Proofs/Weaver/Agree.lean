import Galley.Proofs.Tree.SameBut
import Galley.Proofs.Weaver.Expression
import Galley.Proofs.Work.Agree

/-!
# Weaves that agree

Weaves of one document from two trees give the same result if the same programs are located in
both, R ends alike, and, where it ends well, the woven document is there in both trees behind it or
in none, with concordance files that are read alike (`Weaver.agree_viaR`, `Weaver.agree_collect`).
-/

namespace Galley

open Work

variable {t u : Tree}

theorem Tree.SameBut.load_eq {stale : Place → Prop} {here p : Path} (h : t.SameBut u stale)
    (hp : ∀ q, t.place here p = .ok q → ¬ stale q) :
    Concordance.load t here p = Concordance.load u here p := by
  rw [Concordance.load, Concordance.load, h.contains_eq hp]
  cases hc : u.contains here p with
  | false => rfl
  | true => rw [h.read_eq hp hc]

namespace Weaver

variable {host : Host} {programs : Programs} {s : Settings} {target : Path} {d : Directives}
  {R : Tree → Tree → Prop}

theorem agree_collect (h : R t u)
    (hx : t.contains host.here (target.sibling ".tex") =
      u.contains host.here (target.sibling ".tex"))
    (hl : u.contains host.here (target.sibling ".tex") = true →
      Concordance.load t host.here (Concordance.fileFor target) =
        Concordance.load u host.here (Concordance.fileFor target)) :
    Chore.Agree (collect host.here target).run (collect host.here target).run t u
      fun _ _ t' u' => R t' u' := by
  refine agree_lift_look_bind ?_
  rw [hx]
  cases hc : u.contains host.here (target.sibling ".tex") with
  | false => exact agree_stage_pure h
  | true =>
    simp only [Bool.not_true, Bool.false_eq_true, if_false, hl hc]
    cases Concordance.load u host.here (Concordance.fileFor target) with
    | ok concordance => exact agree_stage_pure h
    | error e =>
      let ignore : ExceptT Crash (Work Note Tree) WeaveResult := do
        Chore.logWeaving .warning
          ("Ignoring unreadable concordance for " ++ target.name ++ ": " ++ e.message)
        return .woven (target.sibling ".tex") .empty
      have ignored : Chore.Agree ignore.run ignore.run t u fun _ _ t' u' => R t' u' :=
        agree_lift_bind (Chore.agree_logWeaving (agree_stage_pure h))
      cases e with
      | entry e =>
        cases e with
        | offsetMissing => exact agree_throw h
        | _ => exact ignored
      | _ => exact ignored

theorem mem_startsIn {start : Start} : start ∈ startsIn host s target d t ↔ ∃ engine rscript,
    WeaveEngine.ofName? (WeaveEngine.requested d s) = some engine ∧
      host.which t s.rscript = some rscript ∧ start = engineStart engine rscript target := by
  rw [startsIn]
  split
  · next engine rscript he hw => simp [he, hw]
  · next hn =>
    refine iff_of_false List.not_mem_nil ?_
    rintro ⟨engine, rscript, he, hw, -⟩
    exact hn engine rscript he hw

/-- Weaves agree if R does, and what is made of what it leaves. -/
theorem agree_viaR (h : R t u) (hw : host.which t = host.which u)
    (hr : ∀ start ∈ startsIn host s target d t,
      Chore.Agree (Chore.start programs.bytes start) (Chore.start programs.bytes start) t u
        fun ending _ t' u' => R t' u' ∧ ∀ output errors, ending = .exited 0 output errors →
          Chore.Agree (collect host.here target).run (collect host.here target).run t' u'
            fun _ _ v v' => R v v') :
    Chore.Agree (viaR host programs s target d).run (viaR host programs s target d).run t u
      fun _ _ t' u' => R t' u' := by
  rw [viaR]
  cases he : WeaveEngine.ofName? (WeaveEngine.requested d s) with
  | none => exact agree_stage_pure h
  | some engine =>
    refine agree_lift_look_bind ?_
    rw [← hw]
    cases hf : host.which t s.rscript with
    | none => exact agree_stage_pure h
    | some rscript =>
      refine agree_lift_bind (Chore.agree_logWeaving ?_)
      refine agree_lift_bind (Chore.agree_logWeaving ?_)
      refine agree_lift_bind ((hr _ (mem_startsIn.mpr ⟨engine, rscript, he, hf, rfl⟩)).imp ?_)
      rintro ending es t' u' ⟨h', hcollect⟩
      cases ending with
      | refused reason => exact agree_stage_pure h'
      | broken message => exact agree_throw h'
      | exited status output errors =>
        by_cases hs : status = 0
        · subst hs
          exact hcollect output errors rfl
        · simp only [if_neg hs]
          refine agree_lift_bind (Chore.agree_logWeaving ?_)
          split
          · exact agree_stage_pure h'
          · exact agree_stage_pure h'

end Weaver

end Galley
