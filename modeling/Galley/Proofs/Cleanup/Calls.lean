import Galley.Proofs.Cleanup.Beside
import Galley.Proofs.Path.Spelling
import Galley.Proofs.Work.Leads

/-!
# Calls on a cleanup

One cleanup is started for documents, told to keep the logs and run in any order, and the tree may
change between the calls. What a run does depends on all the calls before it: on the last start, if
no run came behind it, and on whether the logs were ever to be kept. `run_of_calls` says what it
removes, which names it gives and what it leaves of the cleanup.

A cleanup remembers no more of the calls than this (`Remembers`), and one call keeps it so
(`leads_act`).
-/

namespace Galley

open Work

namespace Cleanup

variable {t u : Tree} {here base : Path} {suffix : String}

/-! ### The names of what is removed -/

/-- Whether the byproduct of a suffix is a regular file. -/
def IsThere (t : Tree) (here base : Path) (suffix : String) : Prop :=
  ∃ q, IsByproduct t here base suffix q

private theorem byproduct?_eq_some (hb : base.parts ≠ []) (suffix : String) :
    byproduct? base suffix =
      some { base with parts := base.parts.dropLast ++ [base.name ++ suffix] } :=
  if_neg hb

/-- The byproducts of two suffixes have different names, so they stand at different places. -/
private theorem getLast?_of_isByproduct (hs : suffix ∈ byproductSuffixes) {q : Place}
    (h : IsByproduct t here base suffix q) : q.getLast? = some (base.name ++ suffix) := by
  obtain ⟨p, hp, hq, -⟩ := h
  have hb : base.parts ≠ [] := by
    intro hn
    rw [byproduct?_eq_none_iff.mpr hn] at hp
    cases hp
  rw [byproduct?_eq_some hb, Option.some.injEq] at hp
  subst hp
  have hup : base.name ++ suffix ≠ ".." := by
    intro he
    have hlen := congrArg String.length he
    have hlong := (isName_of_mem hs).two_lt_length
    rw [String.length_append, show "..".length = 2 from rfl] at hlen
    omega
  obtain ⟨above, ha⟩ : ∃ above, (here.join
      { base with parts := base.parts.dropLast ++ [base.name ++ suffix] }).parts =
        above ++ [base.name ++ suffix] := by
    obtain ⟨_ | _ | _, parts⟩ := base
    · exact ⟨here.parts ++ parts.dropLast, (List.append_assoc ..).symm⟩
    · exact ⟨parts.dropLast, rfl⟩
    · exact ⟨parts.dropLast, rfl⟩
  rw [Tree.place, ha] at hq
  exact Tree.getLast?_of_walk hup hq

/-- To remove the byproduct of one suffix leaves those of the others. -/
private theorem isThere_of_less {other : String} (h : t.Less u (IsByproduct t here base other))
    (ho : other ∈ byproductSuffixes) (hs : suffix ∈ byproductSuffixes) (hne : suffix ≠ other) :
    IsThere u here base suffix ↔ IsThere t here base suffix := by
  refine exists_congr fun q => ?_
  rw [isByproduct_of_less h fun q ⟨_, _, _, hf⟩ => hf]
  refine and_iff_left_of_imp fun hq hq' => hne ?_
  have hname := (getLast?_of_isByproduct hs hq).symm.trans (getLast?_of_isByproduct ho hq')
  exact (String.append_right_inj _).mp (Option.some.inj hname)

/-- One removal gives the name of the byproduct if that is a regular file. -/
private theorem result_removeByproduct (hb : base.parts ≠ []) (t : Tree) (here : Path)
    (suffix : String) (past : List Note) : ∃ names,
      ((removeByproduct here base suffix).run past t).result = .ok names ∧
        (names = [base.name ++ suffix] ∧ IsThere t here base suffix ∨
          names = [] ∧ ¬ IsThere t here base suffix) := by
  have hp := byproduct?_eq_some hb suffix
  have hname : ({ base with parts := base.parts.dropLast ++ [base.name ++ suffix] } : Path).name =
      base.name ++ suffix := List.getLastD_concat
  revert hp hname
  generalize ({ base with parts := base.parts.dropLast ++ [base.name ++ suffix] } : Path) = p
  intro hp hname
  obtain ⟨hd, hr⟩ | ⟨hd, -, e, hr⟩ := removeByproduct_cases hp t here past
  · obtain ⟨q, hq, hf, -⟩ := Tree.exists_of_remove_eq_ok hr
    exact ⟨[p.name], hd, .inl ⟨by rw [hname], q, p, hp, hq, hf⟩⟩
  · refine ⟨[], hd, .inr ⟨rfl, ?_⟩⟩
    rintro ⟨q, p', hp', hq⟩
    obtain rfl := Option.some.inj (hp.symm.trans hp')
    exact Tree.remove_eq_error hr q hq

/-- Removals in a row give the names of the byproducts that are regular files at the start. -/
theorem result_removeByproducts (hb : base.parts ≠ []) {suffixes : List String}
    (hs : ∀ suffix ∈ suffixes, suffix ∈ byproductSuffixes) (hd : suffixes.Nodup) (t : Tree)
    (here : Path) (removed : List String) (past : List Note) :
    ∃ gone : List String, gone.Sublist suffixes ∧
      (∀ suffix, suffix ∈ gone ↔ suffix ∈ suffixes ∧ IsThere t here base suffix) ∧
      (removeByproducts here base removed suffixes past t).result =
        (removed ++ gone.map (base.name ++ ·), true) := by
  induction suffixes generalizing t removed past with
  | nil => exact ⟨[], .slnil, by simp, by simp [removeByproducts]⟩
  | cons first rest ih =>
    obtain ⟨hfirst, hrest⟩ := List.forall_mem_cons.mp hs
    obtain ⟨hnot, hd⟩ := List.nodup_cons.mp hd
    obtain ⟨names, hok, hnames⟩ := result_removeByproduct hb t here first past
    have hless := removeByproduct_less t here base first past
    rw [removeByproducts, Work.bind_apply]
    simp only [hok]
    obtain ⟨gone, hsub, hmem, hr⟩ := ih hrest hd
      ((removeByproduct here base first).run past t).state (removed ++ names)
      (past ++ ((removeByproduct here base first).run past t).events)
    -- the byproducts of the other suffixes are there as before
    have hstill : ∀ suffix, suffix ∈ gone ↔ suffix ∈ rest ∧ IsThere t here base suffix := by
      intro suffix
      rw [hmem]
      refine and_congr_right fun hin => ?_
      exact isThere_of_less hless hfirst (hrest suffix hin) fun he => hnot (he ▸ hin)
    obtain ⟨rfl, hthere⟩ | ⟨rfl, hthere⟩ := hnames
    · refine ⟨first :: gone, hsub.cons_cons first, fun suffix => ?_, by simpa using hr⟩
      rw [List.mem_cons, List.mem_cons, hstill]
      constructor
      · rintro (rfl | ⟨hin, h⟩)
        · exact ⟨.inl rfl, hthere⟩
        · exact ⟨.inr hin, h⟩
      · rintro ⟨rfl | hin, h⟩
        · exact .inl rfl
        · exact .inr ⟨hin, h⟩
    · refine ⟨gone, hsub.cons first, fun suffix => ?_, by simpa using hr⟩
      rw [List.mem_cons, hstill]
      constructor
      · exact fun h => ⟨.inr h.1, h.2⟩
      · rintro ⟨rfl | hin, h⟩
        · exact absurd h hthere
        · exact ⟨hin, h⟩

private theorem dueSuffixes_sublist (c : Cleanup) (t : Tree) (here base : Path) :
    (c.dueSuffixes t here base).Sublist byproductSuffixes := by
  refine ((List.Sublist.refl _).append ?_).append ?_
  · split
    · exact .refl _
    · exact List.nil_sublist _
  · split
    · exact List.nil_sublist _
    · exact .refl _

/-- Which names a run gives, if it has a document whose path has a name. -/
theorem names_run {c : Cleanup} (hc : c.base = some base) (hb : base.parts ≠ []) (t : Tree)
    (here : Path) (past : List Note) :
    ∃ gone : List String, gone.Sublist byproductSuffixes ∧
      (∀ suffix, suffix ∈ gone ↔ Goes (HasSource t here base) (c.keepsLogs = true) suffix ∧
        IsThere t here base suffix) ∧
      (c.run here past t).result.1 = gone.map (base.name ++ ·) := by
  have hdue := c.dueSuffixes_sublist t here base
  have hd : byproductSuffixes.Nodup := by decide
  obtain ⟨gone, hsub, hmem, hr⟩ := result_removeByproducts hb (fun s hs => hdue.subset hs)
    (hd.sublist hdue) t here [] past
  refine ⟨gone, hsub.trans hdue, fun suffix => by rw [hmem, mem_dueSuffixes], ?_⟩
  rw [(run_eq hc t here past).1, hr, List.nil_append]

/-- Where no byproduct has a name, none is given. -/
private theorem names_run_of_nameless {c : Cleanup} (hc : c.base = some base) (hb : base.parts = [])
    (t : Tree) (here : Path) (past : List Note) : (c.run here past t).result.1 = [] := by
  have hstop : (removeByproducts here base [] (c.dueSuffixes t here base) past t).result =
      ([], false) := by
    have hone : ∀ suffix, removeByproduct here base suffix = throw () := by
      intro suffix
      simp only [removeByproduct, byproduct?_eq_none_iff.mpr hb]
    rw [dueSuffixes, auxiliarySuffixes, List.append_assoc, List.cons_append, removeByproducts,
      hone]
    rfl
  rw [(run_eq hc t here past).1, hstop]

/-! ### Calls -/

/-- A call on a cleanup, or a change of the tree between calls. -/
inductive Call where
  | start (spelling : String)
  | keepLogs
  | run
  | change (t : Tree)

/-- What a call does to a cleanup and to the tree. -/
def act (here : Path) (c : Cleanup) : Call → Chore Cleanup
  | .start spelling => return c.start here (Path.ofString spelling)
  | .keepLogs => return c.keepLogs
  | .run => do return (← c.run here).2
  | .change t => do
    Chore.setTree t
    return c

/-- What calls in a row do. -/
def actAll (here : Path) (c : Cleanup) : List Call → Chore Cleanup
  | [] => return c
  | call :: rest => do actAll here (← c.act here call) rest

/-- What the byproducts of a document are named after. -/
def baseOf (here : Path) (spelling : String) : Path :=
  here.join ((Path.ofString spelling).parent.child (Path.ofString spelling).stem)

/-- Whether a document awaits a run behind some calls: it is the last one that the cleanup was
started for, and there was no run since. -/
def Awaits (calls : List Call) (spelling : String) : Prop :=
  ∃ before after, calls = before ++ .start spelling :: after ∧
    ∀ call ∈ after, call ≠ .run ∧ ∀ other, call ≠ .start other

private theorem not_awaits_nil (spelling : String) : ¬ Awaits [] spelling := by
  rintro ⟨before, after, h, -⟩
  exact List.append_ne_nil_of_right_ne_nil before (List.cons_ne_nil _ after) h.symm

private theorem awaits_concat_iff {calls : List Call} {call : Call} {spelling : String} :
    Awaits (calls ++ [call]) spelling ↔ call = .start spelling ∨
      Awaits calls spelling ∧ call ≠ .run ∧ ∀ other, call ≠ .start other := by
  constructor
  · rintro ⟨before, after, h, hafter⟩
    obtain rfl | ⟨after, last, rfl⟩ := List.eq_nil_or_concat' after
    · exact .inl (List.singleton_inj.mp (List.append_inj' h rfl).2)
    · rw [List.forall_mem_append, List.forall_mem_singleton] at hafter
      rw [← List.cons_append, ← List.append_assoc] at h
      obtain ⟨rfl, hlast⟩ := List.append_inj' h rfl
      obtain rfl := List.singleton_inj.mp hlast
      exact .inr ⟨⟨before, after, rfl, hafter.1⟩, hafter.2⟩
  · rintro (rfl | ⟨⟨before, after, rfl, hafter⟩, hcall⟩)
    · exact ⟨calls, [], rfl, by simp⟩
    · refine ⟨before, after ++ [call], by simp, ?_⟩
      rw [List.forall_mem_append, List.forall_mem_singleton]
      exact ⟨hafter, hcall⟩

/-- What a cleanup remembers of the calls on it. -/
structure Remembers (here : Path) (calls : List Call) (c : Cleanup) : Prop where
  base_iff : ∀ base, c.base = some base ↔ ∃ spelling, Awaits calls spelling ∧
    base = baseOf here spelling
  keepsLogs_iff : c.keepsLogs = true ↔ .keepLogs ∈ calls

private theorem remembers_nil (here : Path) : Remembers here [] {} where
  base_iff base := by simp [not_awaits_nil]
  keepsLogs_iff := by simp

/-- A call that neither starts nor runs a cleanup changes nothing of what awaits a run. -/
private theorem Remembers.behind {c c' : Cleanup} {calls : List Call} {call : Call}
    (h : Remembers here calls c) (hrun : call ≠ .run) (hstart : ∀ other, call ≠ .start other)
    (hbase : c'.base = c.base)
    (hkept : c'.keepsLogs = true ↔ c.keepsLogs = true ∨ call = .keepLogs) :
    Remembers here (calls ++ [call]) c' where
  base_iff base := by
    simp only [hbase, h.base_iff, awaits_concat_iff, hstart, false_or, hrun, ne_eq,
      not_false_eq_true, implies_true, and_true]
  keepsLogs_iff := by
    rw [hkept, h.keepsLogs_iff, List.mem_append, List.mem_singleton, eq_comm (a := call)]

/-- **One call**: what a cleanup remembers of the calls, it remembers with one more. -/
theorem leads_act {c : Cleanup} {calls : List Call} (h : Remembers here calls c) (call : Call)
    (past : List Note) (t : Tree) :
    Leads (c.act here call) past t fun c' _ _ => Remembers here (calls ++ [call]) c' := by
  cases call with
  | start spelling =>
    refine leads_pure ⟨fun base => ?_, ?_⟩
    · simp [awaits_concat_iff, start, baseOf, eq_comm]
    · simpa [start] using h.keepsLogs_iff
  | keepLogs => exact leads_pure (h.behind (by simp) (by simp) rfl (by simp [keepLogs]))
  | run =>
    refine leads_bind ?_
    rw [Leads, base_run]
    refine leads_pure ⟨fun base => ?_, ?_⟩
    · simp [awaits_concat_iff]
    · simpa using h.keepsLogs_iff
  | change t' =>
    have hc : Remembers here (calls ++ [.change t']) c :=
      h.behind (by simp) (by simp) rfl (by simp)
    exact leads_bind hc

/-- Calls in a row are remembered. -/
private theorem leads_actAll {c : Cleanup} {calls : List Call} (h : Remembers here calls c)
    (more : List Call) (past : List Note) (t : Tree) :
    Leads (c.actAll here more) past t fun c' _ _ => Remembers here (calls ++ more) c' := by
  induction more generalizing c calls past t with
  | nil => simpa [actAll] using leads_pure h
  | cons call rest ih =>
    refine leads_bind ((leads_act h call past t).imp fun c' es t' h' => ?_)
    simpa using ih h' (past ++ es) t'

/-- What a run does behind some calls, in the tree `t`. -/
structure Accounts (here : Path) (calls : List Call) (t : Tree)
    (d : Done Note Tree (List String × Cleanup)) : Prop where
  /-- Nothing, unless the cleanup was started since the last run. -/
  idle : (∀ spelling, ¬ Awaits calls spelling) → d.state = t ∧ d.result.1 = []
  /-- Nothing either, if the path of the last document has no name. -/
  nameless : ∀ spelling, Awaits calls spelling → (baseOf here spelling).name = "" →
    d.state = t ∧ d.result.1 = []
  /-- Else the byproducts that are due go as far as they are regular files, in order, and the logs
  are due unless they were ever to be kept; the names are those of what is gone. -/
  removed : ∀ spelling, Awaits calls spelling → (baseOf here spelling).name ≠ "" →
    ∃ gone : List String, gone.Sublist [".out", ".aux", ".bbl", ".blg", ".log"] ∧
      (∀ suffix, suffix ∈ gone ↔
        Goes (HasSource t here (baseOf here spelling)) (.keepLogs ∈ calls) suffix ∧
          IsThere t here (baseOf here spelling) suffix) ∧
      d.result.1 = gone.map ((baseOf here spelling).name ++ ·) ∧
      t.Less d.state fun q => ∃ suffix ∈ gone, IsByproduct t here (baseOf here spelling) suffix q
  /-- Afterwards there is no document until the next start. -/
  forgotten : ∀ later : List Call, (∀ spelling, .start spelling ∉ later) → ∀ past t',
    (d.result.2.actAll here later past t').result.active = false

/-- What awaits a run behind a run was started for since. -/
private theorem mem_of_awaits {calls later : List Call} {spelling : String}
    (h : Awaits (calls ++ .run :: later) spelling) : .start spelling ∈ later := by
  induction later using List.reverseRecOn with
  | nil =>
    obtain h | ⟨-, h, -⟩ := awaits_concat_iff.mp h
    · cases h
    · exact absurd rfl h
  | append_singleton later call ih =>
    rw [← List.cons_append, ← List.append_assoc] at h
    obtain rfl | ⟨h, -⟩ := awaits_concat_iff.mp h
    · exact List.mem_concat_self
    · exact List.mem_append_left _ (ih h)

private theorem wellSpelled_baseOf (hhere : here.WellSpelled) (spelling : String) :
    (baseOf here spelling).WellSpelled := by
  have hparent : (Path.ofString spelling).parent.WellSpelled := fun w hw =>
    Path.wellSpelled_ofString spelling w ((List.dropLast_sublist _).subset hw)
  exact hhere.join (hparent.join (Path.wellSpelled_ofString _))

/-- **A cleanup as a state machine**: what a run does behind any calls on a fresh cleanup. -/
theorem run_of_calls (hhere : here.WellSpelled) (calls : List Call) (past : List Note) (t : Tree) :
    let d := actAll here {} calls past t
    Accounts here calls d.state (d.result.run here (past ++ d.events) d.state) := by
  intro d
  have hd : Remembers here calls d.result := leads_actAll (remembers_nil here) calls past t
  have hless : d.state.Less (d.result.run here (past ++ d.events) d.state).state _ :=
    run_less (past ++ d.events)
  constructor
  · intro hn
    have hbase : d.result.base = none := by
      rw [Option.eq_none_iff_forall_ne_some]
      intro base hb
      obtain ⟨spelling, hs, -⟩ := (hd.base_iff base).mp hb
      exact hn spelling hs
    simp only [run, hbase]
    exact ⟨rfl, rfl⟩
  · intro spelling hs hname
    have hbase := (hd.base_iff _).mpr ⟨spelling, hs, rfl⟩
    have hparts := (wellSpelled_baseOf hhere spelling).parts_eq_nil hname
    refine ⟨?_, names_run_of_nameless hbase hparts _ _ _⟩
    refine hless.unique (.refl ?_)
    rintro q ⟨base, hb, suffix, -, p, hp, -⟩
    obtain rfl := Option.some.inj (hbase.symm.trans hb)
    rw [byproduct?_eq_none_iff.mpr hparts] at hp
    cases hp
  · intro spelling hs hname
    have hbase := (hd.base_iff _).mpr ⟨spelling, hs, rfl⟩
    obtain ⟨gone, hsub, hmem, hr⟩ := names_run hbase (Path.parts_ne_nil_of_name hname) d.state here
      (past ++ d.events)
    rw [hd.keepsLogs_iff] at hmem
    refine ⟨gone, hsub, hmem, hr, hless.congr fun q => ?_⟩
    simp only [hbase, Option.some.injEq, exists_eq_left', hmem, hd.keepsLogs_iff]
    refine exists_congr fun suffix => and_congr_left fun hq => ?_
    exact (and_iff_left ⟨q, hq⟩).symm
  · intro later hl past' t'
    have hrun : Remembers here (calls ++ [.run]) _ := leads_act hd .run (past ++ d.events) d.state
    have hlater : Remembers here _ _ := leads_actAll hrun later past' t'
    rw [active, Option.isSome_eq_false_iff, Option.isNone_iff_eq_none,
      Option.eq_none_iff_forall_ne_some]
    intro base hb
    obtain ⟨spelling, hs, -⟩ := (hlater.base_iff base).mp hb
    rw [List.append_assoc] at hs
    exact hl spelling (mem_of_awaits hs)

private theorem Goes.not_kept {bibliography kept : Prop} (h : Goes bibliography kept suffix)
    (hl : suffix ∈ logSuffixes) : ¬ kept := by
  cases h with
  | out | aux | bbl => exact absurd hl (by decide)
  | log h | blg h => exact h

/-- A tree with byproducts of two documents. -/
def leftovers : Tree :=
  (["/q.aux", "/q.log", "/r.aux", "/r.log"].foldlM
    (fun (t : Tree) p => t.write (Path.ofString "/") (Path.ofString p) []) ∅).toOption.getD ∅

/-- The logs are kept for good: they were to be kept before the document was known. -/
theorem run_of_calls_kept :
    let here := Path.ofString "/"
    let calls : List Call :=
      [.start "/q.tex", .run, .keepLogs, .start "/r.tex", .change leftovers]
    let d := actAll here {} calls [] ∅
    let e := d.result.run here ([] ++ d.events) d.state
    here.WellSpelled ∧ Awaits calls "/r.tex" ∧ (baseOf here "/r.tex").name = "r" ∧
      e.result.1 = ["r.aux"] ∧ leftovers.node? ["r.log"] ≠ none ∧
      e.state.node? ["r.log"] = leftovers.node? ["r.log"] := by
  intro here calls d e
  have hhere : here.WellSpelled := Path.wellSpelled_ofString "/"
  have hs : Awaits calls "/r.tex" :=
    ⟨[.start "/q.tex", .run, .keepLogs], [.change leftovers], rfl, by simp⟩
  have hname : (baseOf here "/r.tex").name = "r" := by decide
  refine ⟨hhere, hs, hname, by decide +kernel, by decide +kernel, ?_⟩
  obtain ⟨gone, hsub, hmem, -, hless⟩ := (run_of_calls hhere calls [] ∅).removed "/r.tex" hs
    (by rw [hname]; decide)
  refine (hless ["r.log"]).2 ?_
  rintro ⟨suffix, hg, hq⟩
  have hlast := getLast?_of_isByproduct (hsub.subset hg) hq
  rw [hname, List.getLast?_singleton, Option.some.injEq] at hlast
  have hlog : suffix = ".log" := (String.append_right_inj "r").mp hlast.symm
  have hkept := ((hmem suffix).mp hg).1.not_kept (by rw [hlog]; decide)
  exact hkept (by simp [calls])

end Cleanup

end Galley
