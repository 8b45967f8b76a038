import Galley.Proofs.Concordance.Continuations
import Galley.Proofs.Program.Settles
import Galley.Proofs.Text.Utf8
import Galley.Proofs.Weaver.Agree

/-!
# The concordance of an earlier weave

Weaving reads the concordance that stands next to the woven document, and nothing clears the one of
an earlier weave away. So it makes no difference what an earlier weave left just if R, where it
produces the woven document, writes a concordance itself or takes the old one away
(`Weaver.result_viaR_eq_iff`). Otherwise the document comes with the lines of another one
(`Weaver.viaR_of_staleConcordance`).
-/

namespace Galley

open Text Work

variable {t u : Tree} {here p : Path} {q : Place}

/-! ### Reading a concordance -/

namespace Concordance

/-- A concordance file that no tool writes: its only entry lacks the number of its offset. -/
def spoiled : String := "\\Sconcordance\x7bconcordance:a:b:ofs\x7d"

private theorem readAll_spoiled (baseDir : Path) :
    readAll baseDir (unifyBreaks spoiled.toList) = .error .offsetMissing := by
  have hplain : joinContinuations (unifyBreaks spoiled.toList) = spoiled.toList := by
    have hjoin := joinContinuations_append_of_notMem (s := spoiled.toList) (by decide) []
    rw [joinContinuations_nil, List.append_nil] at hjoin
    exact hjoin
  have hbody : entryBodiesFrom 0 spoiled.toList = ["concordance:a:b:ofs".toList] := by
    decide +kernel
  rw [readAll, hplain, hbody]
  rfl

private theorem load_of_none (hp : t.place here p = .ok q) (hn : t.node? q = none) :
    load t here p = .ok .empty := by
  have hc : t.contains here p = false := by
    rw [← Bool.not_eq_true, Tree.contains_eq_true_iff]
    rintro ⟨q', node, hq', hn'⟩
    cases hp.symm.trans hq'
    cases hn.symm.trans hn'
  rw [load, hc]
  rfl

private theorem load_of_spoiled (hp : t.place here p = .ok q)
    (hn : t.node? q = some (.file (utf8Encode spoiled) false)) :
    load t here p = .error (.entry .offsetMissing) := by
  have hc : t.contains here p = true := Tree.contains_eq_true_iff.mpr ⟨q, _, hp, hn⟩
  have hr : t.read here p = .ok (utf8Encode spoiled) :=
    Tree.read_eq_ok_iff.mpr ⟨q, false, hp, hn⟩
  simp only [load, hc, hr, Bool.not_true, Bool.false_eq_true, if_false, Except.mapError, bind,
    Except.bind, pure, Except.pure, utf8_utf8Encode, readAll_spoiled]

end Concordance

namespace Weaver

open Concordance (fileFor load)

variable {host : Host} {programs : Programs} {s : Settings} {target : Path} {d : Directives}
  {r : ScriptedRun} {t' u' : Tree} {past : List Note}

/-! ### What is made of what R left -/

private theorem result_collect (hx : t.contains here (target.sibling ".tex") = true)
    (past : List Note) : ((collect here target).run past t).result =
      match load t here (fileFor target) with
      | .ok c => .ok (.woven (target.sibling ".tex") c)
      | .error (.entry .offsetMissing) => .error .offsetMissing
      | .error _ => .ok (.woven (target.sibling ".tex") .empty) := by
  change Leads (collect here target).run past t fun result _ _ => result = _
  refine leads_lift_bind (leads_tree ?_)
  simp only [hx, Bool.not_true, Bool.false_eq_true, if_false]
  cases load t here (fileFor target) with
  | ok c => exact leads_stage_pure rfl
  | error e =>
    cases e with
    | entry e =>
      cases e with
      | offsetMissing => exact leads_throw rfl
      | _ => exact leads_lift_bind (leads_logWeaving (leads_stage_pure rfl))
    | _ => exact leads_lift_bind (leads_logWeaving (leads_stage_pure rfl))

/-- Where the woven document is produced, the result is what is made of what R left. -/
private theorem result_viaR_of_produces
    (hp : Produces host programs s target d (startsOf past) t t') :
    ∃ past', ((viaR host programs s target d).run past t).result =
      ((collect host.here target).run past' t').result := by
  obtain ⟨engine, rscript, output, errors, he, hw, hr, -⟩ := hp
  change Leads (viaR host programs s target d).run past t fun result _ _ =>
    ∃ past', result = ((collect host.here target).run past' t').result
  rw [viaR]
  simp only [he]
  refine leads_lift_bind (leads_tree ?_)
  simp only [hw, List.append_nil]
  refine leads_lift_bind (leads_logWeaving (leads_lift_bind (leads_logWeaving ?_)))
  refine leads_lift_bind (leads_start ?_)
  simp only [startsOf_append, startsOf_logged, List.append_nil]
  rw [engineStart] at hr
  rw [hr]
  exact ⟨_, rfl⟩

/-! ### The concordance beside the woven document -/

private theorem isName_stem_append (ht : ∀ w ∈ target.parts, '/' ∉ w.toList) {ending : String}
    (he : Path.IsName ending) : Path.IsName (target.stem ++ ending) :=
  .append (Path.no_slash_stem ht) he

private theorem isName_concordance : Path.IsName "-concordance.tex" := ⟨by decide, by decide⟩

section Beside

variable (ht : ∀ w ∈ target.parts, '/' ∉ w.toList) (hq : t.place here (fileFor target) = .ok q)

include ht hq

private theorem place_tex_ne {r : Place} (hr : u.place here (target.sibling ".tex") = .ok r) :
    r ≠ q := by
  obtain ⟨d, -, -, rfl⟩ := (Tree.place_child (isName_stem_append ht isName_concordance)).mp hq
  obtain ⟨d', -, -, rfl⟩ := (Tree.place_child (isName_stem_append ht Path.isName_tex)).mp hr
  intro h
  have hlast := congrArg String.toList (List.singleton_inj.mp (List.append_inj' h rfl).2)
  rw [String.toList_append, String.toList_append] at hlast
  exact absurd (List.append_cancel_left hlast) (by decide)

/-- Where the woven document is, the concordance has its place. -/
private theorem place_fileFor (hx : u.contains here (target.sibling ".tex") = true) :
    u.place here (fileFor target) = .ok q := by
  obtain ⟨r, -, hr, -⟩ := Tree.contains_eq_true_iff.mp hx
  obtain ⟨d, hd, hdir, -⟩ := (Tree.place_child (isName_stem_append ht Path.isName_tex)).mp hr
  have hplace :=
    (Tree.place_child (isName_stem_append ht isName_concordance)).mpr ⟨d, hd, hdir, rfl⟩
  rw [fileFor, Path.sibling, hplace, Tree.place_unique hq hplace]

private theorem contains_tex_eq (h : t'.SameBut u' (· = q)) :
    t'.contains here (target.sibling ".tex") = u'.contains here (target.sibling ".tex") :=
  h.contains_eq fun _ hr => place_tex_ne ht hq hr

end Beside

/-! ### An R that always does the same -/

/-- Programs that always run alike. -/
def always (r : ScriptedRun) (here : Path) : Programs := .ofRuns (fun _ _ => r) here

section Always

variable (hhere : host.here.isAbsolute = true) (ht : ∀ w ∈ target.parts, '/' ∉ w.toList)
  (hq : t.place host.here (fileFor target) = .ok q)
  (hs : r.Spares (host.here.join target.parent) (· = q)) (h : t.SameBut u (· = q))

include hhere ht hq hs h

/-- A run that settles the concordance, where it produces the document, is not influenced by the
one that was there. -/
private theorem result_viaR_eq (hn : t.node? q ≠ none)
    (hset : (∃ t', Produces host (always r host.here) s target d (startsOf past) t t') →
      r.Settles (host.here.join target.parent) t q) :
    ((viaR host (always r host.here) s target d).run past t).result =
      ((viaR host (always r host.here) s target d).run past u).result := by
  have hdir := Path.isAbsolute_join hhere target.parent
  suffices hagree : Chore.Agree (viaR host (always r host.here) s target d).run
      (viaR host (always r host.here) s target d).run t u
      fun _ _ t' u' => t'.SameBut u' (· = q) from (hagree past past rfl).1
  refine agree_viaR h (h.which_eq host) ?_
  intro start hstart
  obtain ⟨engine, rscript, he, hw, rfl⟩ := mem_startsIn.mp hstart
  obtain ⟨hend, hleft⟩ := ScriptedRun.act_sameBut h hdir hs
  refine Chore.agree_start fun _ => ⟨hend, hleft, fun output errors hexit => ?_⟩
  have hrun {v : Tree} (hv : (r.act (host.here.join target.parent) v).1 =
      .exited 0 output errors) : r.act (host.here.join target.parent) v =
        (.exited 0 output errors, (r.act (host.here.join target.parent) v).2) := Prod.ext hv rfl
  refine agree_collect hleft (contains_tex_eq ht hq hleft) fun hx => ?_
  have hx' := (contains_tex_eq ht hq hleft).trans hx
  have hproduces : Produces host (always r host.here) s target d (startsOf past) t _ :=
    ⟨engine, rscript, output, errors, he, hw, hrun hexit, hx'⟩
  have hsame := ScriptedRun.act_eq_of_settles hdir hs (hset ⟨_, hproduces⟩) hn h (hrun hexit)
    (hrun (hend.symm.trans hexit))
  exact congrArg (load · host.here (fileFor target)) hsame

/-- A run that settles nothing leaves the concordance that was there, at its place. -/
private theorem exists_produces (hset : ¬ r.Settles (host.here.join target.parent) t q)
    (hp : Produces host (always r host.here) s target d (startsOf past) t t') :
    ∃ u', Produces host (always r host.here) s target d (startsOf past) u u' ∧
      u'.place host.here (fileFor target) = .ok q ∧ u'.node? q = u.node? q := by
  have hdir := Path.isAbsolute_join hhere target.parent
  obtain ⟨engine, rscript, output, errors, he, hw, hr, hx⟩ := hp
  obtain ⟨hend, hleft⟩ := ScriptedRun.act_sameBut h hdir hs
  change r.act (host.here.join target.parent) t = _ at hr
  rw [hr] at hend hleft
  have hu : r.act (host.here.join target.parent) u =
      (.exited 0 output errors, (r.act (host.here.join target.parent) u).2) :=
    Prod.ext hend.symm rfl
  have hx' := (contains_tex_eq ht hq hleft).symm.trans hx
  refine ⟨_, ⟨engine, rscript, output, errors, he, ?_, hu, hx'⟩, place_fileFor ht hq hx', ?_⟩
  · rw [← h.which_eq host, hw]
  · exact ScriptedRun.node?_act_of_not_settles hdir hs hset h hu

end Always

/-- **A weave is told by what it wrote itself** just if R, where it produces the woven document,
writes the concordance or takes the old one away. -/
theorem result_viaR_eq_iff (hhere : host.here.isAbsolute = true)
    (ht : ∀ w ∈ target.parts, '/' ∉ w.toList) {stale : List UInt8}
    (hq : t.place host.here (fileFor target) = .ok q)
    (hf : t.node? q = some (.file stale false))
    (hs : r.Spares (host.here.join target.parent) (· = q)) (past : List Note) :
    (∀ u, t.SameBut u (· = q) → ((viaR host (always r host.here) s target d).run past u).result =
      ((viaR host (always r host.here) s target d).run past t).result) ↔
    ((∃ t', Produces host (always r host.here) s target d (startsOf past) t t') →
      r.Settles (host.here.join target.parent) t q) := by
  constructor
  · rintro hsame ⟨t', hp⟩
    by_contra hset
    have hresult {u : Tree} (hu : t.SameBut u (· = q)) : ∃ past' u',
        u'.contains host.here (target.sibling ".tex") = true ∧
        u'.place host.here (fileFor target) = .ok q ∧ u'.node? q = u.node? q ∧
        ((viaR host (always r host.here) s target d).run past t).result =
          ((collect host.here target).run past' u').result := by
      obtain ⟨u', hp', hplace, hleft⟩ := exists_produces hhere ht hq hs hu hset hp
      obtain ⟨past', hr⟩ := result_viaR_of_produces hp'
      obtain ⟨-, -, -, -, -, -, -, hx⟩ := hp'
      exact ⟨past', u', hx, hplace, hleft, (hsame u hu).symm.trans hr⟩
    -- with no concordance there the weave succeeds, with a spoiled one it does not
    obtain ⟨u, hu, hnone⟩ := Tree.exists_sameBut hf (.inl rfl)
    obtain ⟨v, hv, hspoiled⟩ := Tree.exists_sameBut hf
      (.inr ⟨utf8Encode Concordance.spoiled, rfl⟩)
    obtain ⟨past₁, u', hx, hplace, hleft, hr⟩ := hresult hu
    obtain ⟨past₂, v', hx', hplace', hleft', hr'⟩ := hresult hv
    rw [result_collect hx, Concordance.load_of_none hplace (hleft.trans hnone)] at hr
    rw [result_collect hx', Concordance.load_of_spoiled hplace' (hleft'.trans hspoiled)] at hr'
    cases hr.symm.trans hr'
  · intro hset u hu
    exact (result_viaR_eq hhere ht hq hs hu (by simp [hf]) hset).symm

/-! ### A concordance that was left -/

/-- The place of the concordance of `notes.Rnw`. -/
def concordancePlace : Place := ["notes-concordance.tex"]

/-- What an earlier weave left there. -/
def earlier : List UInt8 :=
  utf8Encode "\\Sconcordance\x7bconcordance:notes.tex:notes.Rnw:1 2 1\x7d"

/-- A tree with an R program and the concordance of an earlier weave in it. -/
def revisited : Tree :=
  equipped.put [] "notes-concordance.tex" (.file earlier false) (Tree.node?_nil _)
    (by decide +kernel)

private theorem node?_revisited : revisited.node? concordancePlace = some (.file earlier false) :=
    by
  rw [revisited, Tree.node?_put]
  exact if_pos rfl

private theorem sameBut_revisited : revisited.SameBut equipped (· = concordancePlace) := by
  intro q
  rw [revisited, Tree.node?_put, List.nil_append]
  split
  · next hq =>
    have hnone : equipped.node? concordancePlace = none := by decide +kernel
    rw [hq]
    exact .inr ⟨rfl, .inr ⟨_, rfl⟩, .inl hnone⟩
  · exact .inl rfl

/-- An R that writes a concordance for `notes.Rnw` puts it in place of the one that was left. -/
theorem result_viaR_revisited :
    let programs := always (weavingRun "") atRoot.here
    let s : Settings := { rscript := "/R" }
    ∀ u, revisited.SameBut u (· = concordancePlace) →
      ((viaR atRoot programs s (Path.ofString "/notes.Rnw") {}).run [] u).result =
        ((viaR atRoot programs s (Path.ofString "/notes.Rnw") {}).run [] revisited).result := by
  intro programs s
  refine (result_viaR_eq_iff (by decide) (by decide) ?_ node?_revisited ?_ []).mpr
    fun _ => .inr ?_
  · decide +kernel
  · unfold ScriptedRun.Spares
    decide +kernel
  · exact ⟨_, List.mem_cons_of_mem _ List.mem_cons_self, by decide +kernel⟩

/-- **The document of one weave comes with the lines of another**: R writes the woven document
alone, and the concordance that is there is read. -/
theorem viaR_of_staleConcordance :
    let programs := always { written := [(Path.ofString "notes.tex", some [])] } atRoot.here
    let s : Settings := { rscript := "/R" }
    let target := Path.ofString "/notes.Rnw"
    revisited.SameBut equipped (· = concordancePlace) ∧
      linesOf? ((viaR atRoot programs s target {}).run [] equipped).result = some [] ∧
      linesOf? ((viaR atRoot programs s target {}).run [] revisited).result = some [1, 2, 3] := by
  refine ⟨sameBut_revisited, ?_, ?_⟩
  · decide +kernel
  · decide +kernel

end Weaver

end Galley
