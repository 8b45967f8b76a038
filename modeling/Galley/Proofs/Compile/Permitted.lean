import Galley.Proofs.Cleanup.Beside
import Galley.Proofs.Compile.Safety
import Galley.Proofs.Compile.StaleLogs
import Galley.Proofs.Compile.Timeline
import Galley.Proofs.Toolchain.ShellWords
import Galley.Proofs.Toolchain.Starts

/-!
# What a document can have executed

On a host a compilation starts what its settings and the name of the document lead to. What is
written in the document chooses among three TeX programs and two weave engines and nothing more:
`permitted_of_run`. The TeX program may run shell commands just if the settings allow it, whichever
driver hands the options on.

The viewer is what the system opens the PDF with. What it starts itself is no business of the
document, and is told apart.
-/

namespace Galley.Compilation

open Work

/-- Whether a path is that of a TeX program which a document may choose, as it is found in the
tree `t`. -/
structure Located (host : Host) (t : Tree) (program : Path) : Prop where
  found : ∃ name ∈ TexProgram.supported, ∃ path, host.which t name = some path ∧
    program = host.here.join (Path.ofString path)
  isAbsolute : program.isAbsolute = true

/-- Whether the TeX program is started as the settings say, found in the tree `t`. -/
structure AsSet (host : Host) (settings : Settings) (t : Tree) (o : TexOptions) : Prop where
  located : Located host t o.program
  shellEscape : "-shell-escape" ∈ o.arguments ↔ settings.shellEscape = true

/-- What may be started to compile a document, and in which tree. The TeX program is looked up in
the tree `t` that the compilation begins with. -/
inductive Permitted (host : Host) (settings : Settings) (target : Path) (t : Tree) :
    Start → Tree → Prop
  /-- R, to evaluate one expression for a literate document. -/
  | weave {u : Tree} {rscript : String} (engine : WeaveEngine)
      (hl : settings.literateExtensions.contains (Text.lower target.suffix) = true)
      (h : host.which u settings.rscript = some rscript) :
      Permitted host settings target t
        ⟨[rscript, "-e", engine.expression target.name], some target.parent, none⟩ u
  /-- The TeX program, to tell its version. -/
  | probe {u : Tree} {program : Path} (h : Located host t program) :
      Permitted host settings target t ⟨[toString program, "--version"], none, none⟩ u
  /-- The TeX program, to typeset. -/
  | pass {u : Tree} {o : TexOptions} (h : AsSet host settings t o) :
      Permitted host settings target t
        ⟨toString o.program :: o.arguments ++ [(target.sibling ".tex").name],
          some (target.sibling ".tex").parent, none⟩ u
  /-- The program that typesets by itself, with the TeX program and its options in two variables,
  as words for the shell. -/
  | texi2dvi {u : Tree} {path line : String} {o : TexOptions} (h : AsSet host settings t o)
      (hp : host.which u "texi2dvi" = some path)
      (hw : ShellWord.words? line = some (toString o.program :: o.arguments)) :
      Permitted host settings target t
        ⟨[path, "--pdf", "--quiet", "--batch", (target.sibling ".tex").name],
          some (target.sibling ".tex").parent,
          some ((host.environment.set "PDFLATEX" line).set "LATEX" line)⟩ u
  | bibtex {u : Tree} : Permitted host settings target t
      ⟨["bibtex", (target.sibling ".tex").stem], some (target.sibling ".tex").parent, none⟩ u
  | makeindex {u : Tree} : Permitted host settings target t
      ⟨["makeindex", (target.sibling ".tex").stem ++ ".idx"],
        some (target.sibling ".tex").parent, none⟩ u

section OnHost

variable {host : Host} {programs : Programs} {viewer : Path → ExceptT Crash (Work Note Tree) Unit}
  {document : String} {completion : Completion} {settings : Settings} {t : Tree}

private theorem mem_supported {d : Directives} {name : String}
    (h : TexProgram.supportedName d settings = .ok name) : name ∈ TexProgram.supported := by
  rw [TexProgram.supportedName] at h
  split at h
  · next hmem =>
    cases h
    exact hmem
  · cases h

/-- The program that is chosen is one of those that may be, and it is absolute. -/
private theorem located_of_chosen (hh : host.here.isAbsolute = true) {program : Path}
    (h : (onHost host programs viewer document completion settings).Chosen t program) :
    Located host t program := by
  obtain ⟨name, found, hp, hw, rfl⟩ := h
  exact ⟨⟨name, mem_supported hp, found, Except.ok.inj hw, rfl⟩, Path.isAbsolute_join hh _⟩

private theorem asSet_of_chosen (hh : host.here.isAbsolute = true) {program : Path}
    (h : (onHost host programs viewer document completion settings).Chosen t program)
    (version : String) :
    AsSet host settings t { program, shellEscape := settings.shellEscape, version } :=
  ⟨located_of_chosen hh h, TexOptions.mem_arguments_iff _⟩

/-- The collaborators of a host start what is permitted, and they change the tree by that alone. Of
the viewer the same has to be known. -/
theorem secure_onHost (hh : host.here.isAbsolute = true) {right : Start → Tree → Prop}
    {I : Tree → Prop}
    (hr : ∀ s u, Permitted host settings (host.here.resolveIn document) t s u → right s u)
    (hv : completion = .view → ∀ past u, Leads (viewer (pdfPath (host.here.resolveIn document))).run
      past u fun _ notes u' => Safe programs right I past u notes u')
    (hI : ∀ past u, I u → I (removeStaleLogs host.here
      ((host.here.resolveIn document).sibling ".tex") past u).state) :
    (onHost host programs viewer document completion settings).Secure t programs right I where
  weaver hl directives past u := by
    refine leads_adapt ?_
    refine (Weaver.replayed_viaR past u).imp fun _ _ _ h => h.safe fun s v hs => ?_
    obtain ⟨hfound, engine⟩ := hs
    exact hr _ _ (.weave engine hl hfound)
  probe := by
    intro program hp past u
    have hstart : ∀ v, right ⟨[toString program, "--version"], none, none⟩ v :=
      fun v => hr _ _ (.probe (located_of_chosen hh hp))
    refine leads_adapt ?_
    exact (Toolchain.replayed_probeVersion hstart past u).imp fun _ _ _ h => h.safe fun _ _ => id
  driver := by
    intro u d hd program hp version past
    cases hd
    refine leads_adapt ?_
    refine Toolchain.replays_driver.imp fun _ _ _ h => h.safe fun s v hs => ?_
    have ho := asSet_of_chosen hh hp version
    cases hs with
    | pass => exact hr _ _ (.pass ho)
    | bibtex => exact hr _ _ .bibtex
    | makeindex => exact hr _ _ .makeindex
    | texi2dvi hfound => exact hr _ _ (.texi2dvi ho hfound (TexOptions.words?_commandLine _))
  viewer := hv
  publisher name past u :=
    (replayed_lift (replayed_log .info _) past u).imp fun _ _ _ h => h.safe fun _ _ => id
  stale := hI

/-- The TeX document has the stem of the document. -/
private theorem name_tex {target : Path} (ht : target.Settled) :
    (target.sibling ".tex").name = target.stem ++ ".tex" ∧
      (target.name ≠ "" → (target.sibling ".tex").stem = target.stem) := by
  have hname : (target.sibling ".tex").name = target.stem ++ ".tex" := by
    rw [Path.sibling_eq_beside ht.no_slash ⟨by decide, by decide⟩, Path.name_beside]
  exact ⟨hname, fun hn => Path.stem_eq hname rfl (by decide) (Path.stem_ne_empty hn)⟩

/-- **What a document can have executed.** Whatever is written in it and whatever the programs do,
what a compilation on a host starts is permitted, unless it is the viewer that starts it. -/
theorem permitted_of_run (hh : host.here.Settled) (past : List Event) (t : Tree) :
    let c := onHost host programs viewer document completion settings
    (∀ s u status, .note (.started s u status) ∈ (c.run past { tree := t }).events →
      Permitted host settings c.target t s u ∨ completion = .view ∧ ∃ past' u' status',
        .started s u status' ∈ ((viewer (pdfPath c.target)).run past' u').events) ∧
      (c.target.sibling ".tex").name = c.target.stem ++ ".tex" ∧
      (c.target.name ≠ "" → (c.target.sibling ".tex").stem = c.target.stem) := by
  have htarget : (host.here.resolveIn document).Settled :=
    Path.settled_resolveIn hh.isAbsolute hh.no_slash document
  -- the starts of the viewer are right whatever they are
  let right (s : Start) (u : Tree) : Prop :=
    Permitted host settings (host.here.resolveIn document) t s u ∨ completion = .view ∧
      ∃ past' u' status', .started s u status' ∈
        ((viewer (pdfPath (host.here.resolveIn document))).run past' u').events
  have hsecure : (onHost host programs viewer document completion settings).Secure t programs right
      fun _ => True := by
    refine secure_onHost hh.isAbsolute (fun _ _ => .inl) (fun hview past u => ?_) fun _ _ => id
    exact ⟨fun s v status h => .inr ⟨hview, past, u, status, h⟩, fun _ _ => trivial⟩
  have hrun : Leads (onHost host programs viewer document completion settings).run past
      { tree := t } fun _ es _ => Starts right es := by
    refine leads_run ((sound_carryOut hsecure past).imp fun o es a hs => ?_)
    refine (landmarks_finish (disciplined_onHost ..)).imp fun _ es' a' hf es'' hl => ?_
    refine hs.1.append (.append (starts_of_nil ?_) (starts_of_nil ?_))
    · rw [starts_eq, hf]
      rfl
    · rw [starts_eq, hl]
      rfl
  exact ⟨hrun, name_tex htarget⟩

end OnHost

/-- A compilation that starts the TeX program twice, for its version and for the document. -/
theorem permitted_of_run_swept :
    let c := idleCompilation fun _ => .exited 0 [] []
    rootHost.here.Settled ∧
      ((c.run [] { tree := swept }).events.filterMap Event.start?).length = 2 ∧
      ∀ s u status, .note (.started s u status) ∈ (c.run [] { tree := swept }).events →
        Permitted rootHost {} c.target swept s u := by
  refine ⟨settled_rootHost, by decide +kernel, fun s u status h => ?_⟩
  exact ((permitted_of_run settled_rootHost [] swept).1 s u status h).resolve_right nofun

end Galley.Compilation
