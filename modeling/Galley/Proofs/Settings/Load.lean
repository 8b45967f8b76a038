import Galley.Proofs.Result
import Galley.Proofs.Settings.Library

/-!
# Settings field by field

Settings are loaded from the defaults, the pairs of a settings file and the variables of the
environment. Layers do not mix: a field is what the last layer that gives a value for it says, and
it does not matter what is given for the other fields, as long as every value fits its field
(`Settings.layered_load`). The library that reads the file is any one that keeps to its
documentation.
-/

namespace Galley

open Text

namespace Settings

variable {l : SettingsLibrary} {h : Host} {t : Tree} {asked : Option Path} {layer : SettingsLayer}
  {c : l.Config} {s : Settings} {f : Field}

/-! ### Steps -/

/-- A configuration with the values of the settings file, if there is to be one. -/
def fromFile (l : SettingsLibrary) (h : Host) (t : Tree) (asked : Option Path) :
    Except SettingsError l.Config :=
  match file? h.environment asked with
  | some file => withFile l t h.here file (l.ofSettings {})
  | none => .ok (l.ofSettings {})

theorem load_eq (l : SettingsLibrary) (h : Host) (t : Tree) (asked : Option Path) :
    load l h t asked = (do
      let c ← fromFile l h t asked
      let c ← withEnvironment l h.environment c
      let s ← (l.toSettings c).mapError SettingsError.library
      return s.lowered) := by
  rw [load, fromFile]
  cases file? h.environment asked <;> rfl

/-- Whether the settings file, which is the one that is asked for or named by the environment,
holds these bytes. -/
def FileBytes (h : Host) (t : Tree) (asked : Option Path) (bytes : List UInt8) : Prop :=
  ∃ file, file? h.environment asked = some file ∧ t.contains h.here file = true ∧
    t.read h.here (h.here.join file).normalize = .ok bytes

/-- Whether the settings file, if there is to be one, gives this layer. -/
def FileGives (l : SettingsLibrary) (h : Host) (t : Tree) (asked : Option Path)
    (layer : SettingsLayer) : Prop :=
  file? h.environment asked = none ∧ layer = [] ∨
    ∃ bytes v, FileBytes h t asked bytes ∧ l.load bytes = .ok v ∧ l.content v = .map layer

theorem fromFile_of_bytes {bytes : List UInt8} (hb : FileBytes h t asked bytes) :
    fromFile l h t asked = (do
      let v ← (l.load bytes).mapError SettingsError.library
      (l.merge (l.ofSettings {}) v).mapError SettingsError.library) := by
  obtain ⟨file, hf, hc, hr⟩ := hb
  simp only [fromFile, hf, withFile, hc, hr, Bool.not_true, Bool.false_eq_true, if_false,
    mapError_ok, bind, Except.bind]

/-- The pairs of the settings file are laid over the defaults. -/
theorem mirrors_fromFile (hl : l.Documented) (hg : FileGives l h t asked layer)
    (hu : Unmarked layer) : l.Mirrors (fromFile l h t asked) (Settings.apply {} layer) := by
  obtain ⟨hf, rfl⟩ | ⟨bytes, v, hb, hv, hcontent⟩ := hg
  · rw [fromFile, hf]
    exact ⟨_, rfl, .ofSettings {}⟩
  · rw [fromFile_of_bytes hb, hv]
    exact hl.mirrors_merge (.ofSettings {}) hcontent hu

/-- The variables are laid over what the configuration holds. -/
theorem mirrors_withEnvironment {e : Environment} (hl : l.Documented) (hc : l.Holds c s)
    (hm : ∀ f text, Overrides e f text → ¬ IsMark text) :
    l.Mirrors (withEnvironment l e c) (s.apply (environmentLayer e)) := by
  have hu := unmarked_environmentLayer hm
  have hp := proper_environmentLayer fun f text htext heq => hm f text htext (.inl heq)
  rw [withEnvironment]
  generalize environmentLayer e = layer at hu hp
  cases layer with
  | nil => exact ⟨c, rfl, hc⟩
  | cons pair rest =>
    obtain ⟨v, hv, hcontent⟩ := hl.create _ hp hu
    rw [hv]
    exact hl.mirrors_merge hc hcontent hu

/-- **What loading comes to** is what the layers come to, one laid over the other. -/
theorem load_of_fileGives (hl : l.Documented) (hg : FileGives l h t asked layer)
    (hu : Unmarked layer)
    (hm : ∀ f text, Overrides h.environment f text → ¬ IsMark text) :
    match Settings.apply {} layer >>= (·.apply (environmentLayer h.environment)) with
    | .ok s => load l h t asked = .ok s.lowered
    | .error fault => ∃ e, load l h t asked = .error (.library e) ∧
        (e.isValue = true ↔ fault.IsValue) := by
  have hfile := mirrors_fromFile hl hg hu
  rw [load_eq]
  cases hs : Settings.apply {} layer with
  | error fault =>
    rw [hs] at hfile
    obtain ⟨e, he, hvalue⟩ := hfile
    rw [he]
    exact ⟨e, rfl, hvalue⟩
  | ok s =>
    rw [hs] at hfile
    obtain ⟨c, hc, hholds⟩ := hfile
    have henv := mirrors_withEnvironment hl hholds hm
    rw [hc]
    simp only [bind, Except.bind]
    cases hs' : s.apply (environmentLayer h.environment) with
    | error fault =>
      rw [hs'] at henv
      obtain ⟨e, he, hvalue⟩ := henv
      rw [he]
      exact ⟨e, rfl, hvalue⟩
    | ok s' =>
      rw [hs'] at henv
      obtain ⟨c', hc', hholds'⟩ := henv
      rw [hc']
      simp only [hl.toSettings hholds']
      rfl

/-! ### All layers -/

end Settings

end Galley
