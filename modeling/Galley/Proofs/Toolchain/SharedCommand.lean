import Galley.Proofs.Toolchain.Commands
import Galley.Proofs.Toolchain.ShellWords
import Galley.Proofs.Toolchain.Starts

/-!
# The command that the drivers share

Whichever driver is used, the document is typeset by one command. The emulated driver starts it
itself, with the name of the document at its end. texi2dvi finds it in its environment, as a line
under two names, and the shell cuts this line into the words of the command:
`texi2dvi_handsOver_pass`. No character in the path of the TeX program makes more words of it, or
gives the shell anything to do but to read them.
-/

namespace Galley.Toolchain

open Work

variable {programs : Programs} {tex : Path} {o : TexOptions} {past : List Note} {t : Tree}

/-- The driver starts texi2dvi once and nothing else. -/
private theorem leads_texi2dvi {host : Host} {path : String} :
    Leads ((texi2dvi host programs path).run tex o).run past t fun _ notes _ =>
      startsOf notes = [texi2dviStart host path tex o] := by
  refine leads_lift_bind (leads_log (leads_runProgram_starts.imp ?_))
  rintro r notes t' ⟨hn, -⟩
  rw [startsOf_append, startsOf_logged, hn, List.nil_append]

namespace Emulation

variable {e : Emulation}

/-- The emulated driver starts the TeX program first of all. -/
private theorem leads_compile_pass : Leads (e.compile tex o).run past t fun _ notes _ =>
    (startsOf notes).head? = some (passStart tex o) := by
  refine leads_lift_bind (leads_log (leads_stage_bind (leads_runProgram_starts.imp ?_)))
  rintro (stop | first) notes t' ⟨hn, -⟩
  · rw [startsOf_append, startsOf_logged, hn]
    rfl
  · -- what is started behind the first pass does not matter
    simp only [Leads, startsOf_append, startsOf_logged, hn]
    rfl

/-- The emulated driver starts passes of the TeX program, BibTeX and MakeIndex. -/
private theorem mem_starts_compile {s : Start}
    (h : s ∈ startsOf ((e.compile tex o).run past t).events) :
    s = passStart tex o ∨ s = bibtexStart tex ∨ s = makeindexStart tex := by
  obtain ⟨n, hn, hs⟩ := List.mem_filterMap.mp h
  cases n with
  | logged m => cases hs
  | started s' t' status =>
    cases hs
    -- on a host that has no search path there is no texi2dvi to be started
    have hreplayed : Replayed e.programs (DriverStart ⟨e.here, {}⟩ tex o) (e.compile tex o).run :=
      replayed_compile
    have hstart := Replays.of_mem (hreplayed past t) hn
    cases hstart with
    | pass => exact .inl rfl
    | bibtex => exact .inr (.inl rfl)
    | makeindex => exact .inr (.inr rfl)
    | texi2dvi hfound =>
      have hnone : (⟨e.here, {}⟩ : Host).which t' "texi2dvi" = none := rfl
      rw [hnone] at hfound
      cases hfound

end Emulation

/-- **Both drivers run one command.** The line that texi2dvi finds in its environment, under both
names, is cut by the shell into the words of the TeX program's path and arguments; these words with
the name of the document behind them are the command of the emulated driver, which starts by it and
starts nothing else but BibTeX and MakeIndex. -/
theorem texi2dvi_handsOver_pass (host : Host) (programs : Programs) (path : String) (e : Emulation)
    (tex : Path) (o : TexOptions) (past past' : List Note) (t t' : Tree) :
    ∃ (start : Start) (environment : Environment) (line : String) (words : List String),
      startsOf (((texi2dvi host programs path).run tex o).run past t).events = [start] ∧
      start.environment = some environment ∧
      environment.get? "PDFLATEX" = some line ∧ environment.get? "LATEX" = some line ∧
      ShellWord.words? line = some words ∧ words = toString o.program :: o.arguments ∧
      (startsOf ((e.driver.run tex o).run past' t').events).head?.map Start.command =
        some (words ++ [tex.name]) ∧
      ∀ s ∈ startsOf ((e.driver.run tex o).run past' t').events,
        s.command = words ++ [tex.name] ∨ s = Emulation.bibtexStart tex ∨
          s = Emulation.makeindexStart tex := by
  refine ⟨texi2dviStart host path tex o, _, o.commandLine, _, leads_texi2dvi, rfl, ?_, ?_,
    o.words?_commandLine, rfl, ?_, fun s hs => ?_⟩
  · simp
  · simp
  · have hfirst : (startsOf ((e.driver.run tex o).run past' t').events).head? =
        some (Emulation.passStart tex o) := Emulation.leads_compile_pass
    rw [hfirst]
    rfl
  · exact (Emulation.mem_starts_compile hs).imp_left (congrArg Start.command)

/-- A path with a quote and a blank in it. -/
example :
    ShellWord.words? (TexOptions.commandLine ⟨⟨.root, ["Ann's tex"]⟩, true, false, false, ""⟩) =
    some ["/Ann's tex", "-interaction=nonstopmode", "-file-line-error"] := by
  decide +kernel

end Galley.Toolchain
