import Galley.Proofs.Settings.Load
import Galley.Proofs.Tree.Places

/-!
# Why settings cannot be loaded

Loading stops at the first thing that goes wrong: the settings file is not there, it cannot be
read, or the library raises an error. `Settings.load_eq_error_iff` says that there are no other ways
to fail, and `Settings.load_of_firstFault` what the library raises for layers at fault, if it keeps
to its documentation.
-/

namespace Galley

open Text

private theorem Field.convert_scalar_ne_container (f : Field) (x : Yaml.Scalar) :
    f.convert (.scalar x) ≠ .error .container := by
  have hscalar {α : Type} (convert? : Yaml.Scalar → Option α) :
      convertScalar convert? (.scalar x) ≠ .error .container := by
    rw [convertScalar]
    cases convert? x <;> nofun
  cases f with
  | literateExtensions => nofun
  | _ => exact hscalar _

namespace Settings

variable {s : Settings} {layer : SettingsLayer} {pair : Yaml.Scalar × Yaml.Value}
  {fault : LayerFault}

/-! ### Pairs at fault -/

/-- Whether a pair of a layer is at fault, and how. -/
inductive PairFault : Yaml.Scalar × Yaml.Value → LayerFault → Prop
  | unknownKey {key : Yaml.Scalar} {v : Yaml.Value} (hk : ∀ f : Field, key ≠ .text f.name) :
    PairFault (key, v) (.unknownKey (key.toText?.getD ""))
  | invalidValue {f : Field} {v : Yaml.Value} (hv : isUnfilled v = false)
    (hc : f.convert v = .error .type) : PairFault (.text f.name, v) (.invalidValue f)
  | container {f : Field} {v : Yaml.Value} (hv : isUnfilled v = false)
    (hc : f.convert v = .error .container) : PairFault (.text f.name, v) .container

/-- Whether a layer is at fault: the fault is that of its first pair that has one. -/
def FirstFault (layer : SettingsLayer) (fault : LayerFault) : Prop :=
  ∃ before pair after, layer = before ++ pair :: after ∧
    (∀ p ∈ before, ∀ e, ¬ PairFault p e) ∧ PairFault pair fault

private theorem fieldOf_eq_error {key : Yaml.Scalar} (hk : ∀ f : Field, key ≠ .text f.name) :
    fieldOf key = .error (.unknownKey (key.toText?.getD "")) := by
  cases key with
  | text name =>
    have hnone : Field.ofName? name = none := by
      rw [Field.ofName?, List.find?_eq_none]
      intro f _ hf
      exact hk f (congrArg _ (beq_iff_eq.mp hf).symm)
    rw [fieldOf, hnone]
    rfl
  | _ => rfl

private theorem apply_cons_of_fault (h : PairFault pair fault) (s : Settings)
    (rest : SettingsLayer) : s.apply (pair :: rest) = .error fault := by
  cases h with
  | unknownKey hk =>
    rw [apply, fieldOf_eq_error hk]
    rfl
  | invalidValue hv hc | container hv hc =>
    rw [apply_cons, set, if_neg (by simpa using hv), hc]
    rfl

/-- A pair that is not at fault is passed over. -/
private theorem exists_apply_cons (h : ∀ e, ¬ PairFault pair e) (s : Settings)
    (rest : SettingsLayer) : ∃ s' : Settings, s.apply (pair :: rest) = s'.apply rest := by
  obtain ⟨key, v⟩ := pair
  obtain ⟨f, rfl⟩ : ∃ f : Field, key = .text f.name := by
    by_contra hk
    exact h _ (.unknownKey fun f hf => hk ⟨f, hf⟩)
  rw [apply_cons, set]
  by_cases hv : isUnfilled v = true
  · rw [if_pos hv]
    exact ⟨s, rfl⟩
  · rw [if_neg hv]
    rw [Bool.not_eq_true] at hv
    cases hc : f.convert v with
    | ok c => exact ⟨s.put f c, rfl⟩
    | error misfit =>
      cases misfit with
      | type => exact absurd (.invalidValue hv hc) (h _)
      | container => exact absurd (.container hv hc) (h _)

/-- **A layer** fails with the fault of its first pair that has one. -/
theorem apply_eq_error_iff : s.apply layer = .error fault ↔ FirstFault layer fault := by
  constructor
  · intro h
    induction layer generalizing s with
    | nil => cases h
    | cons pair rest ih =>
      by_cases hp : ∃ e, PairFault pair e
      · obtain ⟨e, hp⟩ := hp
        cases (apply_cons_of_fault hp s rest).symm.trans h
        exact ⟨[], pair, rest, rfl, nofun, hp⟩
      · obtain ⟨s', hs'⟩ := exists_apply_cons (not_exists.mp hp) s rest
        obtain ⟨before, other, after, rfl, hbefore, hfault⟩ := ih (hs'.symm.trans h)
        refine ⟨pair :: before, other, after, rfl, ?_, hfault⟩
        exact List.forall_mem_cons.mpr ⟨not_exists.mp hp, hbefore⟩
  · rintro ⟨before, pair, after, rfl, hbefore, hfault⟩
    induction before generalizing s with
    | nil => exact apply_cons_of_fault hfault s after
    | cons first before ih =>
      obtain ⟨hfirst, hbefore⟩ := List.forall_mem_cons.mp hbefore
      obtain ⟨s', hs'⟩ := exists_apply_cons hfirst s (before ++ pair :: after)
      exact hs'.trans (ih hbefore)

/-- A layer without a fault gives settings. -/
theorem exists_apply_eq_ok_iff :
    (∃ s', s.apply layer = .ok s') ↔ ∀ e, ¬ FirstFault layer e := by
  constructor
  · rintro ⟨s', hs'⟩ e hfault
    cases hs'.symm.trans (apply_eq_error_iff.mpr hfault)
  · intro h
    cases hs : s.apply layer with
    | ok s' => exact ⟨s', rfl⟩
    | error e => exact absurd (apply_eq_error_iff.mp hs) (h e)

/-- What is wrong with a variable is its value. -/
theorem firstFault_environmentLayer {e : Environment}
    (h : FirstFault (environmentLayer e) fault) : ∃ f text, Overrides e f text ∧
      ¬ f.Fits (.scalar (.text text)) ∧ fault = .invalidValue f := by
  obtain ⟨before, pair, after, hlayer, -, hfault⟩ := h
  have hmem : pair ∈ environmentLayer e := hlayer ▸ List.mem_append_right _ List.mem_cons_self
  obtain ⟨f, -, hf⟩ := List.mem_filterMap.mp hmem
  obtain ⟨text, htext, rfl⟩ := bind_variableName?_eq_some.mp hf
  generalize hp : (Yaml.Scalar.text f.name, Yaml.Value.scalar (.text text)) = p at hfault
  cases hfault with
  | unknownKey hk =>
    cases hp
    exact absurd rfl (hk f)
  | @invalidValue g v hv hc =>
    obtain ⟨hname, rfl⟩ := Prod.mk.inj hp
    obtain rfl := Field.name_injective (Yaml.Scalar.text.inj hname)
    refine ⟨f, text, htext, ?_, rfl⟩
    rintro ⟨c, hfits⟩
    cases hc.symm.trans hfits
  | @container g v hv hc =>
    obtain ⟨hname, rfl⟩ := Prod.mk.inj hp
    obtain rfl := Field.name_injective (Yaml.Scalar.text.inj hname)
    exact absurd hc (Field.convert_scalar_ne_container f _)

/-! ### What goes wrong -/

variable {l : SettingsLibrary} {h : Host} {t : Tree} {asked : Option Path} {error : SettingsError}

/-- What keeps a configuration with the values of the settings file from being made, and the error
for it. -/
inductive FileTrouble (l : SettingsLibrary) (h : Host) (t : Tree) (asked : Option Path) :
    SettingsError → Prop
  | missing {file : Path} (hf : file? h.environment asked = some file)
    (hc : t.contains h.here file = false) : FileTrouble l h t asked (.missing file)
  /-- It is there and cannot be read. -/
  | unreadable {file : Path} {e : FileError} (hf : file? h.environment asked = some file)
    (hc : t.contains h.here file = true)
    (hr : t.read h.here (h.here.join file).normalize = .error e) : FileTrouble l h t asked (.file e)
  | load {bytes : List UInt8} {e : LibraryError} (hb : FileBytes h t asked bytes)
    (he : l.load bytes = .error e) : FileTrouble l h t asked (.library e)
  | merge {bytes : List UInt8} {v : l.Overlay} {e : LibraryError} (hb : FileBytes h t asked bytes)
    (hv : l.load bytes = .ok v) (he : l.merge (l.ofSettings {}) v = .error e) :
    FileTrouble l h t asked (.library e)

private theorem fromFile_eq_error_iff :
    fromFile l h t asked = .error error ↔ FileTrouble l h t asked error := by
  constructor
  · intro he
    cases hf : file? h.environment asked with
    | none =>
      rw [fromFile, hf] at he
      cases he
    | some file =>
      cases hc : t.contains h.here file with
      | false =>
        simp only [fromFile, hf, withFile, hc] at he
        cases he
        exact .missing hf hc
      | true =>
        simp only [fromFile, hf, withFile, hc, Bool.not_true, Bool.false_eq_true, if_false] at he
        obtain he | ⟨bytes, hr, he⟩ := bind_eq_error_iff.mp he
        · obtain ⟨e, hr, rfl⟩ := mapError_eq_error_iff.mp he
          exact .unreadable hf hc hr
        have hb : FileBytes h t asked bytes := ⟨file, hf, hc, eq_ok_of_mapError hr⟩
        obtain he | ⟨v, hv, he⟩ := bind_eq_error_iff.mp he
        · obtain ⟨e, hv, rfl⟩ := mapError_eq_error_iff.mp he
          exact .load hb hv
        · obtain ⟨e, hm, rfl⟩ := mapError_eq_error_iff.mp he
          exact .merge hb (eq_ok_of_mapError hv) hm
  · intro htrouble
    cases htrouble with
    | missing hf hc =>
      simp only [fromFile, hf, withFile, hc]
      rfl
    | unreadable hf hc hr =>
      simp only [fromFile, hf, withFile, hc, hr]
      rfl
    | load hb he =>
      rw [fromFile_of_bytes hb, he]
      rfl
    | merge hb hv he =>
      simp only [fromFile_of_bytes hb, hv, mapError_ok, bind, Except.bind, he, mapError_error]

/-- A settings file that is there and cannot be read is a directory. -/
theorem FileTrouble.isADirectory (habs : h.here.isAbsolute = true) {e : FileError}
    (ht : FileTrouble l h t asked (.file e)) : e.fault = .isADirectory := by
  cases ht with
  | @unreadable file e hf hc hr =>
    obtain ⟨q, node, hq, hn⟩ := Tree.contains_eq_true_iff.mp hc
    have hfull := Path.isAbsolute_join habs file
    rw [← Tree.place_join habs] at hq
    have hfind := Tree.find_eq_ok.mpr ⟨Tree.place_normalize hfull hq hn, hn⟩
    rw [Tree.read, hfind] at hr
    cases node with
    | directory =>
      cases hr
      rfl
    | file content x => cases hr

/-- What keeps settings from being loaded, and the error for it. -/
inductive Trouble (l : SettingsLibrary) (h : Host) (t : Tree) (asked : Option Path) :
    SettingsError → Prop
  | ofFile {e : SettingsError} (hf : FileTrouble l h t asked e) : Trouble l h t asked e
  | ofEnvironment {c : l.Config} {e : LibraryError} (hc : fromFile l h t asked = .ok c)
    (he : withEnvironment l h.environment c = .error (.library e)) :
    Trouble l h t asked (.library e)
  | ofSettings {c c' : l.Config} {e : LibraryError} (hc : fromFile l h t asked = .ok c)
    (hc' : withEnvironment l h.environment c = .ok c') (he : l.toSettings c' = .error e) :
    Trouble l h t asked (.library e)

theorem Trouble.isADirectory (habs : h.here.isAbsolute = true) {e : FileError}
    (ht : Trouble l h t asked (.file e)) : e.fault = .isADirectory := by
  cases ht with
  | ofFile hf => exact hf.isADirectory habs

/-- Nothing but the library fails when the environment is merged. -/
private theorem exists_of_withEnvironment_eq_error {e : Environment} {c : l.Config}
    (he : withEnvironment l e c = .error error) : ∃ x, error = .library x := by
  rw [withEnvironment] at he
  split at he
  · cases he
  · obtain he | ⟨v, -, he⟩ := bind_eq_error_iff.mp he
    · obtain ⟨x, -, rfl⟩ := mapError_eq_error_iff.mp he
      exact ⟨x, rfl⟩
    · obtain ⟨x, -, rfl⟩ := mapError_eq_error_iff.mp he
      exact ⟨x, rfl⟩

/-- **What loading fails with** is what keeps it from succeeding. -/
theorem load_eq_error_iff : load l h t asked = .error error ↔ Trouble l h t asked error := by
  constructor
  · intro he
    rw [load_eq] at he
    obtain he | ⟨c, hc, he⟩ := bind_eq_error_iff.mp he
    · exact .ofFile (fromFile_eq_error_iff.mp he)
    obtain he | ⟨c', hc', he⟩ := bind_eq_error_iff.mp he
    · obtain ⟨x, rfl⟩ := exists_of_withEnvironment_eq_error he
      exact .ofEnvironment hc he
    obtain he | ⟨s, -, he⟩ := bind_eq_error_iff.mp he
    · obtain ⟨x, hs, rfl⟩ := mapError_eq_error_iff.mp he
      exact .ofSettings hc hc' hs
    · cases he
  · intro htrouble
    rw [load_eq]
    cases htrouble with
    | ofFile hf =>
      rw [fromFile_eq_error_iff.mpr hf]
      rfl
    | ofEnvironment hc he =>
      simp only [hc, bind, Except.bind, he]
    | ofSettings hc hc' he =>
      simp only [hc, bind, Except.bind, hc', he, mapError_error]

/-! ### What the library raises -/

/-- The fault of a settings file. -/
theorem load_of_firstFault (hl : l.Documented) (hg : FileGives l h t asked layer)
    (hu : Unmarked layer) (hm : ∀ f text, Overrides h.environment f text → ¬ IsMark text)
    (hf : FirstFault layer fault) :
    ∃ e, load l h t asked = .error (.library e) ∧ (e.isValue = true ↔ fault.IsValue) := by
  have hload := load_of_fileGives hl hg hu hm
  rw [apply_eq_error_iff.mpr hf] at hload
  exact hload

/-- Where the settings file has no fault, it is the value of a variable that is wrong. -/
theorem error_of_no_firstFault (hl : l.Documented) (hg : FileGives l h t asked layer)
    (hu : Unmarked layer) (hm : ∀ f text, Overrides h.environment f text → ¬ IsMark text)
    (hn : ∀ fault, ¬ FirstFault layer fault) (he : load l h t asked = .error error) :
    ∃ e, error = .library e ∧ e.isValue = true ∧
      ∃ f text, Overrides h.environment f text ∧ ¬ f.Fits (.scalar (.text text)) := by
  have hload := load_of_fileGives hl hg hu hm
  obtain ⟨s, hs⟩ := exists_apply_eq_ok_iff.mpr hn
  rw [hs] at hload
  simp only [bind, Except.bind] at hload
  cases hs' : s.apply (environmentLayer h.environment) with
  | ok s' =>
    rw [hs'] at hload
    cases hload.symm.trans he
  | error fault =>
    rw [hs'] at hload
    obtain ⟨e, hload, hvalue⟩ := hload
    obtain ⟨f, text, htext, hfits, rfl⟩ := firstFault_environmentLayer (apply_eq_error_iff.mp hs')
    exact ⟨e, Except.error.inj (he.symm.trans hload), hvalue.mpr ⟨f, rfl⟩, f, text, htext, hfits⟩

end Settings

end Galley
