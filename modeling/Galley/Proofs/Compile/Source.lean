import Galley.Proofs.Compile.Byproducts
import Galley.Proofs.Compile.Permitted

/-!
# The source of a compilation

A compilation removes files twice, the logs before it typesets and the byproducts at its end, and
both times it derives their names from the stem of the document. A document whose own suffix is none
of theirs is therefore kept, unless a program writes or deletes it: `read_run`.

With one of these suffixes the document is its own byproduct. Nothing refuses such a document, and
then a run that is to clean up takes it away (`not_isFile_run`).
-/

namespace Galley

open Work

namespace Compilation

variable {target here : Path} {t : Tree}

/-! ### What is removed is not the source -/

/-- The byproducts that are named after the directory do not stand in it. -/
private theorem parts_ne_of_byproduct?_parent (ht : target.Settled) (hn : target.name ≠ "")
    {suffix : String} (hs : Path.IsName suffix) {p : Path}
    (hp : Cleanup.byproduct? target.parent suffix = some p) :
    p.Settled ∧ p.parts ≠ target.parts := by
  rw [Cleanup.byproduct?, Path.withName?] at hp
  split at hp
  · cases hp
  · next hne =>
    have hname : Path.IsName (target.parent.name ++ suffix) :=
      .append (Path.no_slash_name ht.parent.no_slash) hs
    have hchild := ht.parent.parent.child hname
    rw [Path.child_eq _ hname] at hchild
    obtain rfl := Option.some.inj hp
    refine ⟨hchild, fun heq => ?_⟩
    -- such a byproduct has as many names as the directory
    have hlength := congrArg List.length heq
    have hparts : target.parts.length ≠ 0 := by
      simpa using Path.parts_ne_nil_of_name hn
    have hparent : target.parent.parts.length ≠ 0 := by simpa using hne
    simp only [Path.parent, List.length_append, List.length_dropLast, List.length_singleton]
      at hlength hparent
    omega

/-- A byproduct with another suffix than the document is not the document. -/
theorem not_isByproduct_target (ht : target.Settled) (hn : target.name ≠ "") {suffix : String}
    (hs : suffix ∈ Cleanup.byproductSuffixes) (hne : suffix ≠ target.suffix) :
    ¬ Cleanup.IsByproduct t here (here.join (target.parent.child target.stem)) suffix
      target.parts := by
  rintro ⟨p, hp, hplace, -⟩
  have hsettled : p.Settled ∧ p.parts ≠ target.parts := by
    by_cases hd : target.stem = "."
    · rw [Cleanup.byproduct?_of_dot hd, Path.join_of_isAbsolute ht.parent.isAbsolute] at hp
      exact parts_ne_of_byproduct?_parent ht hn (Cleanup.isName_of_mem hs) hp
    · have hbeside := ht.beside (Cleanup.isName_of_mem hs)
      rw [Cleanup.byproduct?_eq _ ht.no_slash hn hd, Option.some.injEq,
        Path.join_of_isAbsolute hbeside.isAbsolute] at hp
      subst hp
      exact ⟨hbeside, Path.parts_beside_ne hn hne⟩
  exact hsettled.2 (Tree.place_eq_of_settled hsettled.1 hplace).symm

private theorem not_isLog_target (ht : target.Settled) (hn : target.name ≠ "")
    (hs : target.suffix ∉ Cleanup.logSuffixes) : ¬ IsLog target target.parts := by
  have helsewhere {ending : String} (he : Path.IsName ending)
      (hmem : ending ∈ Cleanup.logSuffixes) : target.parts ≠ (target.sibling ending).parts := by
    rw [Path.sibling_eq_beside ht.no_slash he]
    refine (Path.parts_beside_ne hn ?_).symm
    rintro rfl
    exact hs hmem
  rw [ht.isLog_iff (Path.stem_ne_empty hn)]
  rintro (h | h)
  · exact helsewhere ⟨by decide, by decide⟩ (by decide) h
  · exact helsewhere ⟨by decide, by decide⟩ (by decide) h

/-! ### The source stays -/

/-- The suffixes of the files that a compilation removes. -/
def removedSuffixes (s : Settings) : List String :=
  if s.cleanOutput then Cleanup.byproductSuffixes else Cleanup.logSuffixes

private theorem logSuffixes_subset (s : Settings) : Cleanup.logSuffixes ⊆ removedSuffixes s := by
  rw [removedSuffixes]
  split
  · exact List.subset_append_right _ _
  · exact List.Subset.refl _

private theorem read_removeStaleLogs (ht : target.Settled) (hn : target.name ≠ "")
    (hs : target.suffix ∉ Cleanup.logSuffixes) {content : List UInt8} (past : List Note)
    (hr : t.read here target = .ok content) :
    (removeStaleLogs here (target.sibling ".tex") past t).state.read here target = .ok content := by
  have hless := removeStaleLogs_less ht t here past
  refine hless.read_eq_ok (fun q hq => hq.2) (fun q hq hgone => ?_) hr
  rw [Tree.place_eq_of_settled ht hq] at hgone
  exact not_isLog_target ht hn hs hgone.1

/-- The cleanup at the end of a run keeps the source. -/
theorem read_of_treeLeft {c : Compilation} (hc : c.cleaner = Cleanup.cleaner c.here)
    (ht : c.target.Settled) (hn : c.target.name ≠ "")
    (hs : c.target.suffix ∉ removedSuffixes c.settings) {content : List UInt8} {past : List Event}
    (hr : (c.treeLeft past t).read c.here c.target = .ok content) :
    (c.run past { tree := t }).state.tree.read c.here c.target = .ok content := by
  refine (run_less hc past t).read_eq_ok ?_ (fun q hq hgone => ?_) hr
  · rintro q ⟨-, suffix, -, p, -, -, hf⟩
    exact hf
  · obtain ⟨⟨hclean, -⟩, suffix, hgoes, hby⟩ := hgone
    rw [Tree.place_eq_of_settled ht hq] at hby
    refine not_isByproduct_target ht hn hgoes.mem ?_ hby
    rintro rfl
    refine hs ?_
    rw [removedSuffixes, if_pos hclean]
    exact hgoes.mem

/-- Whether the document of a compilation has a content in a tree. -/
def SourceIs (c : Compilation) (content : List UInt8) (u : Tree) : Prop :=
  u.read c.here c.target = .ok content

/-- **The source survives**: on every way that a run on a host takes to its end, the document is
there with its content, if its suffix is none that the compilation removes and no program that is
started changes it. The viewer may do anything that programs do. -/
theorem read_run {c : Compilation} {host : Host} {programs : Programs}
    {viewer : Path → ExceptT Crash (Work Note Tree) Unit} {document : String}
    {completion : Completion} {settings : Settings} {content : List UInt8} {past : List Event}
    (hc : c = onHost host programs viewer document completion settings)
    (hh : host.here.Settled) (hn : c.target.name ≠ "")
    (hs : c.target.suffix ∉ removedSuffixes settings) (hr : c.SourceIs content t)
    (hp : Granted (Event.Keeps programs (c.SourceIs content)) past
      (c.run past { tree := t }).events)
    (hv : ∀ past u, c.SourceIs content u →
      Granted (programs.Keeps (c.SourceIs content)) past
        ((c.viewer (pdfPath c.target)).run past u).events →
      c.SourceIs content ((c.viewer (pdfPath c.target)).run past u).state) :
    c.SourceIs content (c.run past { tree := t }).state.tree := by
  have ht : c.target.Settled := by
    rw [hc]
    exact Path.settled_resolveIn hh.isAbsolute hh.no_slash document
  have hstale (past : List Note) (u : Tree) (hu : c.SourceIs content u) :
      c.SourceIs content (removeStaleLogs c.here (c.target.sibling ".tex") past u).state :=
    read_removeStaleLogs ht hn (fun h => hs (logSuffixes_subset settings h)) past hu
  have hsecure : c.Secure t programs (fun _ _ => True) (c.SourceIs content) := by
    subst hc
    refine secure_onHost hh.isAbsolute (fun _ _ _ => trivial) (fun _ past u => ?_) hstale
    exact ⟨fun _ _ _ _ => trivial, hv past u⟩
  have hsound := (sound_carryOut hsecure past).2 hr
  -- the events of the attempt come first among those of the run
  have hevents : ∃ rest, (c.run past { tree := t }).events =
      (c.carryOut past { tree := t }).events ++ rest := by
    rw [run_of_created rfl, bind_apply]
    exact ⟨_, rfl⟩
  obtain ⟨rest, hrest⟩ := hevents
  rw [hrest, granted_append] at hp
  refine read_of_treeLeft ?_ ht hn ?_ (hsound hp.1)
  · rw [hc]
    rfl
  · rw [hc] at hs ⊢
    exact hs

private theorem keeps_idleRuns (ending : Start → Galley.Ending (List UInt8)) (I : Tree → Prop)
    (past : List Note) (n : Note) :
    Programs.Keeps (.ofRuns (idleRuns ending) rootHost.here) I past n := by
  cases n with
  | logged m => trivial
  | started s u status => exact fun hu => ⟨hu, hu⟩

/-- The source survives a TeX program that fails. -/
theorem read_run_swept :
    let c := idleCompilation fun _ => .exited 1 [] []
    rootHost.here.Settled ∧ c.target.name ≠ "" ∧ c.target.suffix ∉ removedSuffixes {} ∧
      c.SourceIs [] swept ∧ c.SourceIs [] (c.run [] { tree := swept }).state.tree := by
  have hname : (idleCompilation fun _ => .exited 1 [] []).target.name ≠ "" := by decide +kernel
  have hsuffix : (idleCompilation fun _ => .exited 1 [] []).target.suffix ∉ removedSuffixes {} := by
    decide +kernel
  have hsource : (idleCompilation fun _ => .exited 1 [] []).SourceIs [] swept := by
    rw [SourceIs]
    decide +kernel
  refine ⟨settled_rootHost, hname, hsuffix, hsource, ?_⟩
  refine read_run (onHost_idleRuns _).symm settled_rootHost hname hsuffix hsource ?_ ?_
  · exact granted_of_forall (fun past e n _ => keeps_idleRuns _ _ _ n) _ _
  · exact fun past u hu _ => hu

/-! ### A source that is its own byproduct -/

/-- **A document with the suffix of a byproduct is lost** in every run that is to clean up. -/
theorem not_isFile_run {c : Compilation} (hc : c.cleaner = Cleanup.cleaner c.here)
    (ht : c.target.Settled) (hd : c.target.stem ≠ ".")
    (hs : c.target.suffix ∈ Cleanup.auxiliarySuffixes) (hclean : c.settings.cleanOutput = true)
    (ha : c.Accepts t) (past : List Event) :
    ¬ (c.run past { tree := t }).state.tree.IsFile c.target.parts := by
  have hn : c.target.name ≠ "" := by
    intro hempty
    rw [← Path.stem_append_suffix, String.append_eq_empty_iff] at hempty
    rw [hempty.2] at hs
    exact absurd hs (by decide)
  have hbeside : c.target.beside c.target.suffix = c.target := by
    rw [Path.beside, ← Path.parts_eq_of_name hn]
  rw [(run_less hc past t).isFile]
  rintro ⟨hf, hgone⟩
  obtain ⟨content, executable, hnode⟩ := hf
  refine hgone ⟨⟨hclean, ha⟩, c.target.suffix, ?_, c.target, ?_, Tree.place_of_node? ht hnode,
    content, executable, hnode⟩
  · simp only [Cleanup.auxiliarySuffixes, List.mem_cons, List.not_mem_nil, or_false] at hs
    obtain h | h := hs <;> rw [h]
    · exact .out
    · exact .aux
  · rw [byproductBase, Cleanup.byproduct?_eq _ ht.no_slash hn hd, hbeside,
      Path.join_of_isAbsolute ht.isAbsolute]

/-- A tree with a TeX program and a document that has the suffix of a byproduct. -/
def ownByproduct : Tree :=
  (do
    let t ← (∅ : Tree).install rootHost.here (Path.ofString "/pdflatex")
    t.write rootHost.here (Path.ofString "/r.aux") []).toOption.getD ∅

/-- **The source is deleted** by a run that succeeds, with programs that change nothing. -/
theorem run_of_ownByproduct :
    let programs := Programs.ofRuns (idleRuns fun _ => .exited 0 [] []) rootHost.here
    let c := onHost rootHost programs (fun _ => pure ()) "r.aux" .none {}
    c.Accepts ownByproduct ∧ c.SourceIs [] ownByproduct ∧
      Granted (Event.Keeps programs (c.SourceIs [])) [] (c.run [] { tree := ownByproduct }).events ∧
      ¬ c.SourceIs [] (c.run [] { tree := ownByproduct }).state.tree := by
  refine ⟨by decide +kernel, ?_, ?_, ?_⟩
  · rw [SourceIs]
    decide +kernel
  · exact granted_of_forall (fun past e n _ => keeps_idleRuns _ _ _ n) _ _
  · rw [SourceIs]
    decide +kernel

end Compilation

end Galley
