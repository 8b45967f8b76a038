import Galley.Proofs.CommandLine.Flags
import Galley.Proofs.Settings.Faults

/-!
# Settings that cannot be loaded

A compile command whose settings cannot be loaded is over before anything is done: it ends with the
status one, starts no program and leaves the tree as it was. It says why only for some of the
errors that there are (`SettingsError.Foreseen`); any other one escapes from the command, so that
the user gets a traceback for a directory, for an unknown key or for a document that does not parse
(`Workplace.rejects_compile`).
-/

namespace Galley

open Settings (FileGives FirstFault Overrides IsMark Unmarked)

/-- Whether an error of the settings is one that the compile command expects: a file is not there,
or a value is wrong. -/
inductive SettingsError.Foreseen : SettingsError → Prop
  | missing (file : Path) : Foreseen (.missing file)
  | notFound (path : String) : Foreseen (.file ⟨.notFound, path⟩)
  | value {e : LibraryError} (h : e.isValue = true) : Foreseen (.library e)

private theorem SettingsError.isReported_iff {e : SettingsError} : e.isReported = true ↔
    e.Foreseen := by
  constructor
  · intro h
    cases e with
    | missing file => exact .missing file
    | file e =>
      obtain ⟨fault, path⟩ := e
      obtain rfl : fault = .notFound := beq_iff_eq.mp h
      exact .notFound path
    | library e => exact .value h
  · rintro (_ | _ | h)
    · rfl
    · rfl
    · exact h

private theorem SettingsError.foreseen_library_iff {e : LibraryError} :
    (SettingsError.library e).Foreseen ↔ e.isValue = true :=
  isReported_iff.symm

/-- Whether a command on a tree was over before anything was done. -/
structure Report.EndsAtOnce (r : Report) (t : Tree) : Prop where
  status : r.conclusion.status = 1
  events : r.events = []
  logged : r.logged = []
  tree : r.tree = t

namespace Workplace

variable {w : Workplace} {t : Tree} {r : CompileRequest} {e : SettingsError}

/-- What a compile command does whose settings cannot be loaded. -/
structure Rejects (w : Workplace) (t : Tree) (r : CompileRequest) (e : SettingsError) : Prop where
  cause : Settings.Trouble w.library w.host t r.config e
  ends : (w.compile t r).EndsAtOnce t
  /-- One line on the errors tells of an error that is foreseen. -/
  reported_iff : (∃ text, (w.compile t r).written = [.errors ("Error: " ++ text ++ "\n\n")]) ↔
    e.Foreseen
  escapes_iff : (∃ failure, (w.compile t r).conclusion = .failed failure) ↔ ¬ e.Foreseen
  /-- A settings file that is there and cannot be read is a directory, which is not foreseen. -/
  unreadable : w.host.here.isAbsolute = true → ∀ error, e = .file error →
    error.fault = .isADirectory ∧ ¬ e.Foreseen
  /-- Of a mapping in the settings file only a value of the wrong type is foreseen. -/
  documented_file : w.library.Documented →
    (∀ f text, Overrides w.host.environment f text → ¬ IsMark text) →
    ∀ layer fault, FileGives w.library w.host t r.config layer → Unmarked layer →
      FirstFault layer fault → (e.Foreseen ↔ fault.IsValue)
  /-- If only a variable is bad, that is told. -/
  documented_variable : w.library.Documented →
    (∀ f text, Overrides w.host.environment f text → ¬ IsMark text) →
    ∀ layer, FileGives w.library w.host t r.config layer → Unmarked layer →
      (∀ fault, ¬ FirstFault layer fault) → e.Foreseen

/-- **Bad settings** end the command at once; which of them it reports depends on the error. -/
theorem rejects_compile (w : Workplace) (hdone : ¬ (r.view = true ∧ r.publish = true))
    (he : Settings.load w.library w.host t r.config = .error e) : w.Rejects t r e := by
  have hboth : (r.view && r.publish) = false := by
    rwa [← Bool.not_eq_true, Bool.and_eq_true]
  have hforeseen (hf : e.Foreseen) : w.compile t r =
      { written := [.errors ("Error: " ++ e.message ++ "\n\n")]
        conclusion := .refused e, tree := t } := by
    simp only [compile, hboth, he, Bool.false_eq_true, if_false,
      SettingsError.isReported_iff.mpr hf, if_true]
  have hescapes (hf : ¬ e.Foreseen) : w.compile t r =
      { conclusion := .failed (.settings e), tree := t } := by
    simp only [compile, hboth, he, Bool.false_eq_true, if_false,
      mt SettingsError.isReported_iff.mp hf]
  have hcause := Settings.load_eq_error_iff.mp he
  constructor
  · exact hcause
  · by_cases hf : e.Foreseen
    · rw [hforeseen hf]
      exact ⟨rfl, rfl, rfl, rfl⟩
    · rw [hescapes hf]
      exact ⟨rfl, rfl, rfl, rfl⟩
  · by_cases hf : e.Foreseen
    · rw [hforeseen hf]
      exact iff_of_true ⟨e.message, rfl⟩ hf
    · rw [hescapes hf]
      refine iff_of_false ?_ hf
      rintro ⟨text, ⟨⟩⟩
  · by_cases hf : e.Foreseen
    · rw [hforeseen hf]
      refine iff_of_false ?_ (not_not.mpr hf)
      rintro ⟨failure, ⟨⟩⟩
    · rw [hescapes hf]
      exact iff_of_true ⟨_, rfl⟩ hf
  · rintro habs error rfl
    have hfault := hcause.isADirectory habs
    refine ⟨hfault, fun hf => ?_⟩
    cases hf
    cases hfault
  · intro hl hm layer fault hg hu hfault
    obtain ⟨x, hx, hvalue⟩ := Settings.load_of_firstFault hl hg hu hm hfault
    obtain rfl := Except.error.inj (he.symm.trans hx)
    rw [SettingsError.foreseen_library_iff, hvalue]
  · intro hl hm layer hg hu hn
    obtain ⟨x, rfl, hvalue, -⟩ := Settings.error_of_no_firstFault hl hg hu hm hn he
    exact .value hvalue

/-- A workplace at the root, without variables and with programs that do nothing. -/
def bare : Workplace := { configuredPlace with host := { here := Path.ofString "/" } }

/-- A request with a settings file of its own. -/
def requestWith (config : String) : CompileRequest :=
  { target := Path.ofString "r.tex", config := some (Path.ofString config) }

/-- A settings file that is not there is told of. -/
theorem rejects_compile_missing :
    bare.Rejects ∅ (requestWith "q.yaml") (.missing (Path.ofString "q.yaml")) ∧
      ∃ text, (bare.compile ∅ (requestWith "q.yaml")).written =
        [.errors ("Error: " ++ text ++ "\n\n")] := by
  have he : Settings.load bare.library bare.host ∅ (requestWith "q.yaml").config =
      .error (.missing (Path.ofString "q.yaml")) :=
    Settings.load_eq_error_iff.mpr (.ofFile (.missing rfl (by decide +kernel)))
  have hrejects := rejects_compile bare (by decide) he
  exact ⟨hrejects, hrejects.reported_iff.mpr (.missing _)⟩

/-- **A directory for a settings file** is not told of: the error escapes. -/
theorem compile_of_directory :
    (bare.compile ∅ (requestWith "/")).written = [] ∧
      (bare.compile ∅ (requestWith "/")).conclusion =
        .failed (.settings (.file ⟨.isADirectory, "/"⟩)) := by
  constructor
  · decide +kernel
  · decide +kernel

end Workplace

end Galley
