import Galley.Path
import Galley.Proofs.Text.Trim
import Galley.Proofs.Text.Words

/-!
# Settled paths

A path is **settled** if it starts from the root and has no `..` in it, and no name in it has a
slash. What is read from a settled directory and normalized is settled (`settled_resolveIn`), and
so is what stands next to a settled path (`Settled.sibling`); of a settled path the components are
the names that lead to it from the root. So a settled path is in normal form
(`Settled.normalize_eq`), and the names in a settled directory tell files apart
(`Settled.locate_child_eq_iff`).
-/

namespace Galley.Path

open Text

/-- Whether a path starts from the root and is made of names alone. -/
structure Settled (p : Path) : Prop where
  isAbsolute : p.isAbsolute = true
  no_up : ".." ∉ p.parts
  no_slash : ∀ w ∈ p.parts, '/' ∉ w.toList

theorem join_of_isAbsolute {p : Path} (h : p.isAbsolute = true) (here : Path) :
    here.join p = p := by
  obtain ⟨anchor, parts⟩ := p
  cases anchor with
  | here => cases h
  | root | twoSlashes => rfl

theorem isAbsolute_iff {p : Path} : p.isAbsolute = true ↔ p.anchor ≠ .here := by
  simp [isAbsolute]

theorem isAbsolute_join {p : Path} (h : p.isAbsolute = true) (q : Path) :
    (p.join q).isAbsolute = true := by
  obtain ⟨anchor, parts⟩ := q
  cases anchor with
  | here => exact h
  | root | twoSlashes => rfl

/-! ### Spellings -/

theorem no_slash_ofString (s : String) : ∀ w ∈ (ofString s).parts, '/' ∉ w.toList := by
  intro w hw
  obtain ⟨v, hv, rfl⟩ := List.mem_map.mp hw
  rw [String.toList_ofList]
  exact notMem_of_mem_fields (List.mem_filter.mp hv).1

private theorem anchorOf_eq_here {s : List Char} (h : '/' ∉ s) : anchorOf s = .here := by
  rw [anchorOf.eq_def]
  split <;> simp_all

/-- A spelling without slashes that is no single dot names one component. -/
theorem ofString_eq {s : String} (hs : '/' ∉ s.toList) (hne : s.toList ≠ [])
    (hd : s.toList ≠ ['.']) : ofString s = ⟨.here, [s]⟩ := by
  rw [ofString, anchorOf_eq_here hs, partsOf, fields_eq_singleton hs]
  simp [hne, hd]

theorem no_slash_name {p : Path} (h : ∀ w ∈ p.parts, '/' ∉ w.toList) : '/' ∉ p.name.toList := by
  rw [name, List.getLastD_eq_getLast?]
  cases hl : p.parts.getLast? with
  | none => simp
  | some w => exact h w (List.mem_of_getLast? hl)

theorem no_slash_stem {p : Path} (h : ∀ w ∈ p.parts, '/' ∉ w.toList) : '/' ∉ p.stem.toList := by
  have hn := no_slash_name h
  rw [stem, cutSuffix]
  split
  · next c before d after hc =>
    rw [(cutLast?_eq_some_iff.mp hc).1, List.mem_append, not_or] at hn
    simpa using hn.1
  · exact hn

/-! ### Normal form -/

private theorem normalizeParts_cons {kept rest : List String} {part : String} :
    ∃ kept', (∀ w ∈ kept', w ≠ ".." → w ∈ part :: kept) ∧ (".." ∉ kept → ".." ∉ kept') ∧
      normalizeParts true kept (part :: rest) = normalizeParts true kept' rest := by
  by_cases hp : part = ".."
  · subst hp
    cases kept with
    | nil => exact ⟨[], by simp, by simp, by simp [normalizeParts]⟩
    | cons last before =>
      by_cases hl : last = ".."
      · subst hl
        exact ⟨".." :: ".." :: before, by simp_all, by simp_all, by simp [normalizeParts]⟩
      · exact ⟨before, by simp_all, by simp_all, by simp [normalizeParts, hl]⟩
  · exact ⟨part :: kept, fun w hw _ => hw, by simp_all [Ne.symm hp], by simp [normalizeParts, hp]⟩

/-- From the root, every `..` is removed, and no name is added. -/
theorem mem_normalizeParts {kept parts : List String} {w : String} (hk : ".." ∉ kept)
    (h : w ∈ normalizeParts true kept parts) : w ≠ ".." ∧ (w ∈ kept ∨ w ∈ parts) := by
  induction parts generalizing kept with
  | nil =>
    rw [normalizeParts, List.mem_reverse] at h
    exact ⟨fun hw => hk (hw ▸ h), .inl h⟩
  | cons part rest ih =>
    obtain ⟨kept', hmem, hup, heq⟩ := @normalizeParts_cons kept rest part
    rw [heq] at h
    obtain ⟨hw, hin⟩ := ih (hup hk) h
    refine ⟨hw, ?_⟩
    rw [List.mem_cons]
    obtain hin | hin := hin
    · obtain rfl | hin := List.mem_cons.mp (hmem w hin hw)
      · exact .inr (.inl rfl)
      · exact .inl hin
    · exact .inr (.inr hin)

/-- What is read from a directory is settled in it. -/
theorem settled_resolveIn {base : Path} (h : base.isAbsolute = true)
    (hs : ∀ w ∈ base.parts, '/' ∉ w.toList) (name : String) : (base.resolveIn name).Settled := by
  have habs : (base.child name).isAbsolute = true := isAbsolute_join h _
  have hslash : ∀ w ∈ (base.child name).parts, '/' ∉ w.toList := by
    have hname := no_slash_ofString name
    rw [child, join]
    split
    · intro w hw
      obtain hw | hw := List.mem_append.mp hw
      · exact hs w hw
      · exact hname w hw
    · exact hname
  have hparts : (base.resolveIn name).parts = normalizeParts true [] (base.child name).parts := by
    rw [resolveIn, normalize, habs]
  refine ⟨habs, fun hup => ?_, fun w hw => ?_⟩
  · rw [hparts] at hup
    exact (mem_normalizeParts List.not_mem_nil hup).1 rfl
  · rw [hparts] at hw
    exact hslash w ((mem_normalizeParts List.not_mem_nil hw).2.resolve_left List.not_mem_nil)

private theorem normalizeParts_of_no_up {parts : List String} (h : ".." ∉ parts) (anchored : Bool)
    (kept : List String) : normalizeParts anchored kept parts = kept.reverse ++ parts := by
  induction parts generalizing kept with
  | nil => rw [normalizeParts, List.append_nil]
  | cons part rest ih =>
    rw [List.mem_cons, not_or] at h
    have hkeep : normalizeParts anchored kept (part :: rest) =
        normalizeParts anchored (part :: kept) rest := by
      simp [normalizeParts, Ne.symm h.1]
    rw [hkeep, ih h.2, List.reverse_cons, List.append_assoc, List.singleton_append]

/-- A settled path is in normal form. -/
theorem Settled.normalize_eq {p : Path} (h : p.Settled) : p.normalize = p := by
  rw [normalize, normalizeParts_of_no_up h.no_up, List.reverse_nil, List.nil_append]

/-- A settled path denotes itself, but for the spelling of the root. -/
theorem Settled.locate_eq {p : Path} (h : p.Settled) (here : Path) :
    here.locate p = { p with anchor := .root } := by
  rw [locate, join_of_isAbsolute h.isAbsolute, h.normalize_eq]

/-! ### Paths with a NUL -/

private theorem hasNul_eq_false_iff {p : Path} :
    p.hasNul = false ↔ ∀ w ∈ p.parts, '\x00' ∉ w.toList := by
  simp [hasNul]

/-- The components of a path have no NUL if its spelling has none. -/
theorem hasNul_ofString {s : String} (h : '\x00' ∉ s.toList) : (ofString s).hasNul = false := by
  rw [hasNul_eq_false_iff]
  intro w hw
  obtain ⟨v, hv, rfl⟩ := List.mem_map.mp hw
  rw [String.toList_ofList]
  exact fun hn => h (mem_of_mem_fields (List.mem_filter.mp hv).1 hn).1

theorem hasNul_child {d : Path} (hd : d.hasNul = false) {s : String} (h : '\x00' ∉ s.toList) :
    (d.child s).hasNul = false := by
  have hs := hasNul_ofString h
  rw [hasNul_eq_false_iff] at hd hs ⊢
  intro w hw
  rw [child, join] at hw
  split at hw
  · exact (List.mem_append.mp hw).elim (hd w) (hs w)
  · exact hs w hw

theorem hasNul_normalize {p : Path} (h : p.hasNul = false) (habs : p.isAbsolute = true) :
    p.normalize.hasNul = false := by
  rw [hasNul_eq_false_iff] at h ⊢
  intro w hw
  rw [normalize, habs] at hw
  exact h w ((mem_normalizeParts List.not_mem_nil hw).2.resolve_left List.not_mem_nil)

/-! ### Paths as seen from others -/

private theorem partsBehind?_eq_some_iff {base parts rest : List String} :
    partsBehind? base parts = some rest ↔ parts = base ++ rest := by
  induction base generalizing parts with
  | nil => exact Option.some_inj
  | cons b base ih =>
    cases parts with
    | nil => exact iff_of_false nofun nofun
    | cons part parts =>
      rw [partsBehind?, List.cons_append, List.cons.injEq, eq_comm (a := part)]
      split
      · next hb => rw [ih, and_iff_right hb]
      · next hb => exact iff_of_false nofun fun h => hb h.1

private theorem relativeTo?_eq_some_iff {p base q : Path} : p.relativeTo? base = some q ↔
    p.anchor = base.anchor ∧ q.anchor = .here ∧ p.parts = base.parts ++ q.parts := by
  obtain ⟨anchor, parts⟩ := q
  rw [relativeTo?]
  split
  · next ha =>
    simp only [Option.map_eq_some_iff, partsBehind?_eq_some_iff, mk.injEq, ha, true_and]
    refine ⟨?_, fun ⟨hq, hp⟩ => ⟨parts, hp, hq.symm, rfl⟩⟩
    rintro ⟨rest, hp, rfl, rfl⟩
    exact ⟨rfl, hp⟩
  · next ha => exact iff_of_false nofun fun h => ha h.1

/-- Whether a path is a directory or stands in or below it. -/
def LiesIn (p dir : Path) : Prop := p.anchor = dir.anchor ∧ dir.parts <+: p.parts

instance (p dir : Path) : Decidable (p.LiesIn dir) :=
  inferInstanceAs (Decidable (p.anchor = dir.anchor ∧ dir.parts <+: p.parts))

section LiesIn

variable {base file : Path}

theorem LiesIn.exists_eq (h : file.LiesIn base) :
    ∃ rest, file.parts = base.parts ++ rest ∧ file.relativeTo? base = some ⟨.here, rest⟩ := by
  obtain ⟨ha, rest, hp⟩ := h
  exact ⟨rest, hp.symm, relativeTo?_eq_some_iff.mpr ⟨ha, rfl, hp.symm⟩⟩

theorem relativeTo?_eq_none (h : ¬ file.LiesIn base) : file.relativeTo? base = none := by
  rw [Option.eq_none_iff_forall_ne_some]
  intro q hq
  obtain ⟨ha, -, hp⟩ := relativeTo?_eq_some_iff.mp hq
  exact h ⟨ha, q.parts, hp.symm⟩

end LiesIn

/-! ### What stands in a directory -/

/-- Whether a spelling names something in a directory: it has no slash, and it is longer than the
dots that stand for the directory itself and the one above. -/
structure IsName (w : String) : Prop where
  no_slash : '/' ∉ w.toList
  two_lt_length : 2 < w.length

theorem isName_tex : IsName ".tex" := ⟨by decide, by decide⟩

theorem IsName.append {v w : String} (hv : '/' ∉ v.toList) (hw : IsName w) : IsName (v ++ w) where
  no_slash := by
    rw [String.toList_append, List.mem_append, not_or]
    exact ⟨hv, hw.no_slash⟩
  two_lt_length := by
    have hlen := hw.two_lt_length
    rw [String.length_append]
    omega

/-- Characters with a property do not have one without it among them. -/
theorem notMem_of_forall {p : Char → Bool} {s : List Char} (h : ∀ c ∈ s, p c = true) {c : Char}
    (hc : p c = false) : c ∉ s := by
  intro hm
  rw [h c hm] at hc
  cases hc

/-- A stem of characters that are not slashes, with an ending. -/
theorem IsName.append_of_forall {p : Char → Bool} {stem ending : String}
    (h : ∀ c ∈ stem.toList, p c = true) (hp : p '/' = false) (he : IsName ending) :
    IsName (stem ++ ending) :=
  he.append (notMem_of_forall h hp)

section Child

variable {d : Path} {w : String}

theorem child_eq (d : Path) (hw : IsName w) : d.child w = { d with parts := d.parts ++ [w] } := by
  have hlen : 2 < w.toList.length := hw.two_lt_length
  have hname : ofString w = ⟨.here, [w]⟩ := by
    refine ofString_eq hw.no_slash (fun hn => ?_) fun hd => ?_
    · simp [hn] at hlen
    · simp [hd] at hlen
  rw [child, hname]
  rfl

theorem parent_child (hw : IsName w) : (d.child w).parent = d := by
  rw [child_eq d hw, parent, List.dropLast_concat]

theorem name_child (hw : IsName w) : (d.child w).name = w := by
  rw [child_eq d hw, name, List.getLastD_concat]

theorem Settled.child (h : d.Settled) (hw : IsName w) : (d.child w).Settled := by
  have hup : ".." ≠ w := by
    rintro rfl
    exact absurd hw.two_lt_length (by decide)
  rw [child_eq d hw]
  refine ⟨h.isAbsolute, ?_, ?_⟩
  · rw [List.mem_append, not_or]
    exact ⟨h.no_up, by simpa using hup⟩
  · rw [List.forall_mem_append, List.forall_mem_singleton]
    exact ⟨h.no_slash, hw.no_slash⟩

/-- Two names in a directory denote the same file only if they are the same. -/
theorem Settled.locate_child_eq_iff (h : d.Settled) {v : String} (hv : IsName v) (hw : IsName w)
    {here : Path} : here.locate (d.child v) = here.locate (d.child w) ↔ v = w := by
  rw [(h.child hv).locate_eq, (h.child hw).locate_eq, child_eq d hv, child_eq d hw]
  simp

/-- What stands in a directory is seen from there by its name. -/
theorem relativeTo?_child (hw : IsName w) : (d.child w).relativeTo? d = some ⟨.here, [w]⟩ := by
  rw [child_eq d hw, relativeTo?_eq_some_iff]
  exact ⟨rfl, rfl, rfl⟩

/-- A name may be spelled with a dot and a slash in front. -/
theorem child_dotSlash (d : Path) {s : List Char} (h : '/' ∉ s) :
    d.child (String.ofList ('.' :: '/' :: s)) = d.child (String.ofList s) := by
  have hdot : fields '/' ('.' :: '/' :: s) = ['.'] :: fields '/' s :=
    fields_append_cons (s := ['.']) (by decide) s
  have hspelling : ofString (String.ofList ('.' :: '/' :: s)) = ofString (String.ofList s) := by
    simp only [ofString, partsOf, String.toList_ofList, anchorOf_eq_here h, hdot]
    rfl
  rw [child, hspelling, ← child]

/-- The suffix of a name starts at its last dot. -/
theorem stem_eq {p : Path} {stem suffix : String} {c : Char} {ext : List Char}
    (hn : p.name = stem ++ suffix) (hs : suffix.toList = '.' :: c :: ext) (hd : '.' ∉ c :: ext)
    (hne : stem ≠ "") : p.stem = stem := by
  have hcut : cutLast? '.' p.name.toList = some (stem.toList, c :: ext) := by
    rw [hn, String.toList_append, hs]
    exact cutLast?_eq_some_iff.mpr ⟨rfl, hd⟩
  obtain ⟨b, before, hb⟩ := List.exists_cons_of_ne_nil fun h => hne (String.toList_eq_nil_iff.mp h)
  rw [hb] at hcut
  rw [Path.stem, cutSuffix, hcut]
  simp only [← hb, String.ofList_toList]

end Child

/-! ### Siblings -/

/-- The path next to `p` whose name is the stem of `p` and an ending. -/
def beside (p : Path) (ending : String) : Path :=
  { p with parts := p.parts.dropLast ++ [p.stem ++ ending] }

section Siblings

variable {p : Path} {ending : String}

theorem parts_ne_nil_of_name (h : p.name ≠ "") : p.parts ≠ [] := by
  intro hn
  rw [name, hn] at h
  exact h rfl

/-- A name has a stem. -/
theorem stem_ne_empty (h : p.name ≠ "") : p.stem ≠ "" := by
  rw [stem, cutSuffix]
  split
  · next c before d after _ =>
    intro he
    exact List.cons_ne_nil c before (String.ofList_eq_empty_iff.mp he)
  · exact h

theorem stem_append_suffix (p : Path) : p.stem ++ p.suffix = p.name := by
  rw [stem, suffix, cutSuffix]
  split
  · next c before d after h =>
    rw [← String.ofList_append, ← (cutLast?_eq_some_iff.mp h).1, String.ofList_toList]
  · exact String.append_empty

theorem parts_eq_of_name (h : p.name ≠ "") :
    p.parts = p.parts.dropLast ++ [p.stem ++ p.suffix] := by
  obtain ⟨front, last, hp⟩ := (List.eq_nil_or_concat p.parts).resolve_left (parts_ne_nil_of_name h)
  rw [stem_append_suffix, name, hp, List.concat_eq_append, List.dropLast_concat,
    List.getLastD_concat]

theorem name_beside (p : Path) (ending : String) : (p.beside ending).name = p.stem ++ ending := by
  rw [name, beside, List.getLastD_concat]

/-- What stands next to a path with another ending stands elsewhere. -/
theorem parts_beside_ne (h : p.name ≠ "") (he : ending ≠ p.suffix) :
    (p.beside ending).parts ≠ p.parts := by
  intro heq
  rw [beside, parts_eq_of_name h, List.dropLast_concat] at heq
  have hname := List.singleton_inj.mp (List.append_cancel_left heq)
  exact he (String.append_right_inj _ |>.mp hname)

/-- What stands next to the TeX document stands next to the document. -/
private theorem beside_beside (h : p.stem ≠ "") (ending : String) :
    (p.beside ".tex").beside ending = p.beside ending := by
  have hstem : (p.beside ".tex").stem = p.stem := stem_eq (name_beside p ".tex") rfl (by decide) h
  rw [beside, hstem, beside, beside, List.dropLast_concat]

theorem sibling_eq_beside (hp : ∀ w ∈ p.parts, '/' ∉ w.toList) (he : IsName ending) :
    p.sibling ending = p.beside ending :=
  child_eq p.parent (.append (no_slash_stem hp) he)

theorem sibling_sibling_eq_beside (hp : ∀ w ∈ p.parts, '/' ∉ w.toList) (h : p.stem ≠ "")
    (he : IsName ending) : (p.sibling ".tex").sibling ending = p.beside ending := by
  have hparts : ∀ w ∈ (p.beside ".tex").parts, '/' ∉ w.toList := by
    rw [beside, List.forall_mem_append, List.forall_mem_singleton]
    refine ⟨fun w hw => hp w ((List.dropLast_sublist _).subset hw), ?_⟩
    exact (IsName.append (no_slash_stem hp) isName_tex).no_slash
  rw [sibling_eq_beside hp isName_tex, sibling_eq_beside hparts he, beside_beside h]

namespace Settled

theorem parent (h : p.Settled) : p.parent.Settled where
  isAbsolute := h.isAbsolute
  no_up hup := h.no_up ((List.dropLast_sublist _).subset hup)
  no_slash w hw := h.no_slash w ((List.dropLast_sublist _).subset hw)

/-- What stands next to a settled path is settled. -/
theorem sibling (h : p.Settled) (he : '/' ∉ ending.toList) (hl : 2 < ending.length) :
    (p.sibling ending).Settled :=
  h.parent.child (.append (no_slash_stem h.no_slash) ⟨he, hl⟩)

theorem beside (h : p.Settled) (he : IsName ending) : (p.beside ending).Settled := by
  rw [← sibling_eq_beside h.no_slash he]
  exact h.sibling he.no_slash he.two_lt_length

end Settled

end Siblings

end Galley.Path
