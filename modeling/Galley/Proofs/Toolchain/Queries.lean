import Galley.Compile.Default
import Galley.Proofs.Work.Leads

/-!
# Version queries

The version probe is the only part of the toolchain that starts a program to ask for its version.
`Programs.answering` replaces the answers to such queries and nothing else, and neither the weaver
nor a driver can tell: `Compilation.onHost_answering`.
-/

namespace Galley

open Work

/-- How a program answers when it is asked for its version, if the system can start it. -/
inductive Answer where
  | exited (status : Int) (output errors : String)
  | refused (reason : String)
  deriving DecidableEq, Repr

/-- An answer as the end of a program. -/
def Answer.ending : Answer → Ending String
  | .exited status output errors => .exited status output errors
  | .refused reason => .refused reason

/-- Whether a start asks a program for its version. -/
def Start.isQuery (s : Start) : Bool :=
  match s with
  | ⟨[_, "--version"], none, none⟩ => true
  | _ => false

private theorem Start.isQuery_eq_false {s : Start} {directory : Path}
    (h : s.directory = some directory) : s.isQuery = false := by
  obtain ⟨command, _ | _, environment⟩ := s
  · cases h
  · rw [isQuery]
    nofun

/-- Programs that answer version queries as given, write nothing then, and do what they did
otherwise. -/
def Programs.answering (programs : Programs) (answer : List Start → Start → Tree → Answer) :
    Programs where
  text past s t := if s.isQuery then ((answer past s t).ending, t) else programs.text past s t
  bytes := programs.bytes

variable (programs : Programs) (answer : List Start → Start → Tree → Answer)

namespace Toolchain

private theorem runProgram_answering {s : Start} (h : s.isQuery = false) :
    runProgram (programs.answering answer) s = runProgram programs s := by
  have hstart : Chore.start (programs.answering answer).text s = Chore.start programs.text s := by
    funext past t
    simp [Chore.start, Programs.answering, h]
  rw [runProgram, runProgram, hstart]

/-- A program that is asked leaves the tree, and at worst the system could not start it. -/
private theorem leads_runProgram_query {s : Start} (h : s.isQuery = true) {past : List Note}
    {t : Tree} : Leads (runProgram (programs.answering answer) s).run past t fun r notes t' =>
      (∀ e, r = .error e → ∃ launch, e = .launch launch) ∧ startsOf notes = [s] ∧ t' = t := by
  have htext (starts : List Start) : (programs.answering answer).text starts s t =
      ((answer starts s t).ending, t) := if_pos h
  refine leads_lift_bind (leads_log (leads_lift_bind (leads_start ?_)))
  rw [htext]
  cases answer _ s t with
  | exited status output errors => exact leads_stage_pure ⟨by simp, rfl, rfl⟩
  | refused reason => exact leads_throw ⟨by simp, rfl, rfl⟩

/-- A version that cannot be had is not known, and that is all. -/
theorem leads_probeVersion_answering {program : Path} {past : List Note} {t : Tree} :
    Leads (probeVersion (programs.answering answer) program).run past t fun r notes t' =>
      (∀ e, r = .error e → ∃ reason, e = .unknown reason) ∧
        startsOf notes = [⟨[toString program, "--version"], none, none⟩] ∧ t' = t := by
  refine leads_lift_bind ((leads_runProgram_query programs answer rfl).imp ?_)
  rintro r notes t' ⟨hr, hs, rfl⟩
  rw [← List.append_nil notes] at hs
  split
  · split
    · exact leads_throw ⟨by simp, hs, rfl⟩
    · exact leads_stage_pure ⟨by simp, hs, rfl⟩
  · exact leads_throw ⟨by simp, hs, rfl⟩
  · obtain ⟨launch, he⟩ := hr _ rfl
    cases he

namespace Emulation

variable (e : Emulation)

/-- The programs matter to the further passes only through the pass. -/
private theorem furtherPasses_programs (programs : Programs) (pass : ToolWork ToolOutput)
    (log : Path) (allowed pending : Nat) (soFar : ToolOutput × Nat) :
    ({ e with programs }).furtherPasses pass log allowed pending soFar =
      e.furtherPasses pass log allowed pending soFar := by
  induction allowed generalizing pending soFar with
  | zero => rfl
  | succ allowed ih =>
    obtain ⟨combined, passes⟩ := soFar
    rw [furtherPasses, furtherPasses]
    simp only [ih]
    rfl

private theorem compile_answering (tex : Path) (o : TexOptions) :
    ({ e with programs := e.programs.answering answer }).compile tex o = e.compile tex o := by
  have hrun (command : List String) : runProgram (e.programs.answering answer)
      ⟨command, some tex.parent, none⟩ = runProgram e.programs ⟨command, some tex.parent, none⟩ :=
    runProgram_answering _ _ (Start.isQuery_eq_false rfl)
  have hsettle (pass : ToolWork ToolOutput) (pending : Nat) (combined : ToolOutput) :
      ({ e with programs := e.programs.answering answer }).settle tex pass pending combined =
        e.settle tex pass pending combined := by
    rw [settle, settle, furtherPasses_programs]
  have hindex (pass : ToolWork ToolOutput) (pending : Nat) (combined : ToolOutput) :
      ({ e with programs := e.programs.answering answer }).indexAndSettle tex pass pending
        combined = e.indexAndSettle tex pass pending combined := by
    rw [indexAndSettle, indexAndSettle]
    simp only [hsettle, hrun]
    rfl
  rw [compile, compile]
  simp only [hindex, hrun]
  rfl

end Emulation

private theorem Choice.driver_answering (host : Host) (which : Tree → String → Option String)
    (choice : Choice) :
    choice.driver host (programs.answering answer) which = choice.driver host programs which := by
  cases choice with
  | texi2dvi path =>
    refine congrArg (Driver.mk "texi2dvi") (funext fun tex => funext fun o => ?_)
    rw [runProgram_answering _ _ (Start.isQuery_eq_false rfl)]
  | emulated maxPasses =>
    refine congrArg (Driver.mk "emulated") (funext fun tex => funext fun o => ?_)
    exact Emulation.compile_answering answer ⟨host.here, programs, which, maxPasses⟩ tex o

/-- No driver looks at the version. -/
theorem Choice.run_version (host : Host) (which : Tree → String → Option String) (choice : Choice)
    (tex : Path) (o : TexOptions) (version : String) :
    (choice.driver host programs which).run tex { o with version } =
      (choice.driver host programs which).run tex o := by
  cases choice <;> rfl

end Toolchain

/-- **Only the probe asks for versions.** -/
theorem Compilation.onHost_answering (host : Host)
    (viewer : Path → ExceptT Crash (Work Note Tree) Unit) (target : String)
    (completion : Completion) (settings : Settings) :
    onHost host (programs.answering answer) viewer target completion settings =
      { onHost host programs viewer target completion settings with
        probe := fun program => ExceptT.adapt Stop.ofProbeError
          (Toolchain.probeVersion (programs.answering answer) program) } := by
  simp only [onHost, Toolchain.Choice.driver_answering]
  rfl

end Galley
