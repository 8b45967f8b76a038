import Galley.Proofs.Log.TexLine

/-!
# How the lines of a TeX log are spelled

`Spells` tells what a line of each kind looks like: where the number in it stands, if there is one,
and what is in front of the number. Every line is spelled like its kind (`spells_ofChars`).
-/

namespace Galley.TexLine

open Text

/-- Whether words end in front of the number of a bad box: none of them has a digit. -/
structure IsBoxContext (words : List Char) : Prop where
  not_isDigit : ∀ c ∈ words, isDigit c = false
  ending : "at line ".toList <:+ words ∨ "at lines ".toList <:+ words

/-- Whether a line is spelled like a kind. -/
inductive Spells : List Char → TexLine → Prop
  | fileError {file number message : List Char} (hf : isFileName file = true) (hne : number ≠ [])
      (hd : ∀ c ∈ number, isDigit c = true) :
      Spells (file ++ ':' :: (number ++ ':' :: ' ' :: message)) (.fileError file number message)
  | error {message : List Char} : Spells ('!' :: ' ' :: message) (.error message)
  | givenUp {s : List Char} : Spells s .givenUp
  | warning {source message : List Char} :
      Spells (source ++ (" Warning: ".toList ++ message)) (.warning message)
  | badBox {lead before words number rest : List Char} (hl : lead ∈ boxLeads)
      (hw : IsBoxContext words) (hne : number ≠ []) (hn : rest.takeWhile isDigit = number) :
      Spells (lead ++ before ++ (words ++ rest)) (.badBox (lead ++ before) number)
  | plain {s : List Char} : Spells s .plain

private theorem spells_of_fileError? {s : List Char} {kind : TexLine}
    (h : fileError? s = some kind) : Spells s kind := by
  obtain ⟨file, number, message, rfl, hf, -, hne, hd, -, rfl⟩ := exists_of_fileError?_eq_some h
  exact .fileError hf hne hd

private theorem spells_of_error? {s : List Char} {kind : TexLine} (h : error? s = some kind) :
    Spells s kind := by
  rw [error?] at h
  obtain ⟨message, hlead, h⟩ := Option.bind_eq_some_iff.mp h
  obtain ⟨⟨⟩, -, h⟩ := Option.bind_eq_some_iff.mp h
  rw [dropLead?_eq_some_iff.mp hlead]
  cases h
  split
  · exact .givenUp
  · exact .error

private theorem exists_of_dropSource?_eq_some {s rest : List Char} (h : dropSource? s = some rest) :
    ∃ source, s = source ++ rest := by
  rw [dropSource?] at h
  split at h
  · next hlead =>
    cases h
    exact ⟨_, dropLead?_eq_some_iff.mp hlead⟩
  · obtain ⟨name, hlead, h⟩ := Option.bind_eq_some_iff.mp h
    obtain ⟨⟨⟩, -, h⟩ := Option.bind_eq_some_iff.mp h
    cases h
    have hs : ∃ source, s = source ++ name := by
      obtain hp | ⟨-, hc⟩ := Option.or_eq_some_iff.mp hlead
      · exact ⟨_, dropLead?_eq_some_iff.mp hp⟩
      · exact ⟨_, dropLead?_eq_some_iff.mp hc⟩
    obtain ⟨source, rfl⟩ := hs
    refine ⟨source ++ name.takeWhile isNameChar, ?_⟩
    rw [List.append_assoc, List.takeWhile_append_dropWhile]

private theorem spells_of_warning? {s : List Char} {kind : TexLine} (h : warning? s = some kind) :
    Spells s kind := by
  rw [warning?] at h
  obtain ⟨rest, hsource, h⟩ := Option.bind_eq_some_iff.mp h
  obtain ⟨message, hlead, h⟩ := Option.bind_eq_some_iff.mp h
  obtain ⟨⟨⟩, -, h⟩ := Option.bind_eq_some_iff.mp h
  cases h
  obtain ⟨source, rfl⟩ := exists_of_dropSource?_eq_some hsource
  rw [dropLead?_eq_some_iff.mp hlead]
  exact .warning

/-! ### Bad boxes -/

private theorem dropBoxContext_spec (s : List Char) : ∃ words,
    s = words ++ dropBoxContext s ∧ ∀ c ∈ words, isDigit c = false := by
  rw [dropBoxContext]
  cases hp : dropLead? "in paragraph ".toList s with
  | some rest => exact ⟨_, dropLead?_eq_some_iff.mp hp, by decide⟩
  | none =>
    cases ha : dropLead? "in alignment ".toList s with
    | some rest => exact ⟨_, dropLead?_eq_some_iff.mp ha, by decide⟩
    | none => exact ⟨[], rfl, by simp⟩

/-- The words for a place, in the singular or in the plural. -/
private theorem isBoxContext_of {context : List Char} (h : ∀ c ∈ context, isDigit c = false)
    {place : List Char} (hp : place ∈ ["at line ".toList, "at lines ".toList]) :
    IsBoxContext (' ' :: (context ++ place)) := by
  have hplace : ∀ place ∈ ["at line ".toList, "at lines ".toList], ∀ c ∈ place,
      isDigit c = false := by decide
  have hsuffix : place <:+ ' ' :: (context ++ place) := ⟨' ' :: context, rfl⟩
  refine ⟨?_, ?_⟩
  · rw [List.forall_mem_cons, List.forall_mem_append]
    exact ⟨by decide, h, hplace place hp⟩
  · simp only [List.mem_cons, List.not_mem_nil, or_false] at hp
    obtain rfl | rfl := hp
    · exact .inl hsuffix
    · exact .inr hsuffix

/-- The number of a bad box stands right behind the words for its place. -/
private theorem exists_of_boxPlace?_eq_some {s number : List Char} (h : boxPlace? s = some number) :
    ∃ words rest, s = words ++ rest ∧ IsBoxContext words ∧ number ≠ [] ∧
      rest.takeWhile isDigit = number := by
  rw [boxPlace?] at h
  obtain ⟨r₁, h₁, h⟩ := Option.bind_eq_some_iff.mp h
  obtain ⟨r₂, h₂, h⟩ := Option.bind_eq_some_iff.mp h
  obtain ⟨r₃, h₃, h⟩ := Option.bind_eq_some_iff.mp h
  obtain ⟨⟨⟩, hne, h⟩ := Option.bind_eq_some_iff.mp h
  obtain ⟨context, hc, hcontext⟩ := dropBoxContext_spec r₁
  have hspace : (dropLead? ['s'] r₂).getD r₂ = ' ' :: r₃ := dropLead?_eq_some_iff.mp h₃
  obtain ⟨place, hmem, hp⟩ : ∃ place ∈ ["at line ".toList, "at lines ".toList],
      "at line".toList ++ r₂ = place ++ r₃ := by
    cases hs : dropLead? ['s'] r₂ with
    | none =>
      rw [hs, Option.getD_none] at hspace
      exact ⟨_, List.mem_cons_self, by rw [hspace]; rfl⟩
    | some r =>
      rw [hs, Option.getD_some] at hspace
      refine ⟨_, List.mem_cons_of_mem _ List.mem_cons_self, ?_⟩
      rw [dropLead?_eq_some_iff.mp hs, hspace]
      rfl
  have hnumber : r₃.takeWhile isDigit = number := Option.some.inj h
  refine ⟨_, r₃, ?_, isBoxContext_of hcontext hmem, hnumber ▸ (Option.guard_eq_some' ()).mp hne,
    hnumber⟩
  rw [dropLead?_eq_some_iff.mp h₁, hc, dropLead?_eq_some_iff.mp h₂, hp]
  simp

private theorem exists_of_cutBoxPlace?_eq_some {s before number : List Char}
    (h : cutBoxPlace? s = some (before, number)) :
    ∃ place, s = before ++ place ∧ boxPlace? place = some number := by
  induction s generalizing before with
  | nil => cases h
  | cons c s ih =>
    rw [cutBoxPlace?] at h
    split at h
    · next hplace =>
      cases h
      exact ⟨c :: s, rfl, hplace⟩
    · obtain ⟨⟨before, number⟩, hcut, heq⟩ := Option.map_eq_some_iff.mp h
      cases heq
      obtain ⟨place, rfl, hplace⟩ := ih hcut
      exact ⟨place, rfl, hplace⟩

private theorem spells_of_badBox? {s : List Char} {kind : TexLine} (h : badBox? s = some kind) :
    Spells s kind := by
  obtain ⟨lead, hl, h⟩ := List.exists_of_findSome?_eq_some h
  obtain ⟨rest, hlead, h⟩ := Option.bind_eq_some_iff.mp h
  obtain ⟨⟨before, number⟩, hcut, h⟩ := Option.bind_eq_some_iff.mp h
  cases h
  obtain ⟨place, rfl, hplace⟩ := exists_of_cutBoxPlace?_eq_some hcut
  obtain ⟨words, rest, rfl, hw, hne, hn⟩ := exists_of_boxPlace?_eq_some hplace
  rw [dropLead?_eq_some_iff.mp hlead, ← List.append_assoc]
  exact .badBox hl hw hne hn

/-! ### All kinds -/

/-- Every line is spelled like its kind. -/
theorem spells_ofChars (s : List Char) : Spells s (ofChars s) := by
  rw [ofChars]
  cases hf : fileError? s with
  | some kind => exact spells_of_fileError? hf
  | none =>
    cases he : error? s with
    | some kind => exact spells_of_error? he
    | none =>
      cases hw : warning? s with
      | some kind => exact spells_of_warning? hw
      | none =>
        cases hb : badBox? s with
        | some kind => exact spells_of_badBox? hb
        | none => exact .plain

theorem spells_of_ofChars_eq {s : List Char} {kind : TexLine} (h : ofChars s = kind) :
    Spells s kind := h ▸ spells_ofChars s

/-- The place of an error stands behind the letter that says so. -/
theorem exists_of_errorPlace?_eq_some {s number : List Char} (h : errorPlace? s = some number) :
    ∃ rest, s = 'l' :: '.' :: rest ∧ rest.takeWhile isDigit = number ∧ number ≠ [] := by
  rw [errorPlace?] at h
  obtain ⟨rest, hlead, h⟩ := Option.bind_eq_some_iff.mp h
  obtain ⟨⟨⟩, hne, h⟩ := Option.bind_eq_some_iff.mp h
  have hnumber : rest.takeWhile isDigit = number := Option.some.inj h
  exact ⟨rest, dropLead?_eq_some_iff.mp hlead, hnumber,
    hnumber ▸ (Option.guard_eq_some' ()).mp hne⟩

/-- The number of a warning stands at its end, behind the words for an input line. -/
theorem exists_of_inputLine?_eq_some {s text number : List Char}
    (h : inputLine? s = some (text, number)) : ∃ before stop,
      s = before ++ ("on input line ".toList ++ (number ++ stop)) ∧ number ≠ [] ∧
        (∀ c ∈ number, isDigit c = true) ∧ (stop = [] ∨ stop = ['.']) := by
  obtain ⟨r, stop, hr, hstop, h⟩ : ∃ r stop, s.reverse = stop ++ r ∧ (stop = [] ∨ stop = ['.']) ∧
      (do
        guard (r.takeWhile isDigit ≠ [])
        let before ← dropLead? "on input line ".toList.reverse (r.dropWhile isDigit)
        return ((before.dropWhile isBlank).reverse, (r.takeWhile isDigit).reverse)) =
          some (text, number) := by
    rw [inputLine?] at h
    split at h
    · next r hr => exact ⟨r, ['.'], hr, .inr rfl, h⟩
    · exact ⟨s.reverse, [], rfl, .inl rfl, h⟩
  obtain ⟨⟨⟩, hne, h⟩ := Option.bind_eq_some_iff.mp h
  obtain ⟨before, hlead, h⟩ := Option.bind_eq_some_iff.mp h
  cases h
  have hs : s = (stop ++ (r.takeWhile isDigit ++ r.dropWhile isDigit)).reverse := by
    rw [List.takeWhile_append_dropWhile, ← hr, List.reverse_reverse]
  refine ⟨before.reverse, stop, ?_, ?_, fun c hc => ?_, hstop⟩
  · rw [hs, dropLead?_eq_some_iff.mp hlead]
    obtain rfl | rfl := hstop <;> simp
  · simpa using (Option.guard_eq_some' ()).mp hne
  · exact List.mem_takeWhile_imp (List.mem_reverse.mp hc)

end Galley.TexLine
