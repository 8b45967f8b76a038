import Galley.Proofs.Directives.Header
import Galley.Toolchain.Program
import Galley.Weaver

/-!
# What the header of a document chooses

A document chooses its TeX program and its weave engine by directives with three keys. The first
directive of a key counts even where it is empty; then the next key may choose, and last the
settings do. `requested_ofText` is the main result. It also says that nothing else of a document
has a part in this: not a comment without such a directive, and not what is behind the header.
-/

namespace Galley

open Text Directives

/-! ### What the first directive of a key says -/

namespace Directives

/-- Whether a line is a directive with some key and value. -/
def Gives (line : List Char) (k v : String) : Prop :=
  ∃ p : PrintedDirective, p.line = line ∧ p.pair = (k, v)

/-- Whether the first directive with some key on some lines has the value `v`. -/
def SaysFirst (ls : List (List Char)) (k v : String) : Prop :=
  ∃ front line back, ls = front ++ line :: back ∧ Gives line k v ∧
    ∀ l ∈ front, ∀ u, ¬ Gives l k u

/-- The value that a line gives to a key. -/
def valueOn? (k : String) (line : List Char) : Option String :=
  (ofLine? (trim line)).bind fun kv => if k == kv.1 then some kv.2 else none

variable {k v : String} {line : List Char} {ls : List (List Char)}

private theorem valueOn?_eq_some_iff : valueOn? k line = some v ↔ Gives line k v := by
  rw [valueOn?, Option.bind_eq_some_iff]
  constructor
  · rintro ⟨⟨k', v'⟩, hkv, h⟩
    obtain ⟨hk, hv⟩ := Option.ite_none_right_eq_some.mp h
    obtain rfl := eq_of_beq hk
    obtain rfl := Option.some.inj hv
    exact ofLine?_trim_eq_some_iff.mp hkv
  · intro h
    exact ⟨(k, v), ofLine?_trim_eq_some_iff.mpr h, by simp⟩

private theorem valueOn?_eq_none_iff : valueOn? k line = none ↔ ∀ v, ¬ Gives line k v := by
  simp only [Option.eq_none_iff_forall_ne_some, ne_eq, valueOn?_eq_some_iff]

/-- A document has what the lines of its header give. -/
theorem get?_ofText (text : List Char) (k : String) :
    (ofText text).get? k = (headerOf (lines text)).findSome? (valueOn? k) := by
  rw [ofText, addLines_eq, get?, (firstOfEach_insertAll _).lookup_eq, List.lookup_eq_findSome?,
    directivesOn, ← List.head?_filterMap, List.filterMap_filterMap, List.head?_filterMap]
  rfl

private theorem get?_ofText_eq_some_iff {text : List Char} :
    (ofText text).get? k = some v ↔ SaysFirst (headerOf (lines text)) k v := by
  simp only [get?_ofText, List.findSome?_eq_some_iff, valueOn?_eq_some_iff, valueOn?_eq_none_iff,
    SaysFirst]

/-- Values are trimmed already. -/
private theorem SaysFirst.trim_eq (h : SaysFirst ls k v) : trim v.toList = v.toList := by
  obtain ⟨-, line, -, -, ⟨p, -, hp⟩, -⟩ := h
  obtain ⟨-, rfl⟩ := Prod.mk.inj hp
  rw [String.toList_ofList, p.trim_value]

end Directives

/-! ### Headers that choose the same -/

/-- The keys of the directives by which a document chooses. -/
def choiceKeys : List String := TexProgram.directiveKeys ++ [WeaveEngine.directiveKey]

/-- Whether a line is a comment by which nothing is chosen. -/
def IsIdleComment (line : List Char) : Prop :=
  IsComment line ∧ ∀ k ∈ choiceKeys, ∀ v, ¬ Gives line k v

/-- Whether two headers differ only by comments by which nothing is chosen. -/
inductive SameChoices : List (List Char) → List (List Char) → Prop
  | nil : SameChoices [] []
  | keep (line : List Char) {h h' : List (List Char)} (hh : SameChoices h h') :
      SameChoices (line :: h) (line :: h')
  | insert {line : List Char} {h h' : List (List Char)} (hl : IsIdleComment line)
      (hh : SameChoices h h') : SameChoices h (line :: h')
  | delete {line : List Char} {h h' : List (List Char)} (hl : IsIdleComment line)
      (hh : SameChoices h h') : SameChoices (line :: h) h'

private theorem IsIdleComment.valueOn?_eq_none {line : List Char} {k : String}
    (hl : IsIdleComment line) (hk : k ∈ choiceKeys) : valueOn? k line = none :=
  valueOn?_eq_none_iff.mpr (hl.2 k hk)

private theorem SameChoices.findSome?_eq {h h' : List (List Char)} {k : String}
    (hh : SameChoices h h')
    (hk : k ∈ choiceKeys) : h'.findSome? (valueOn? k) = h.findSome? (valueOn? k) := by
  induction hh with
  | nil => rfl
  | keep line _ ih => rw [List.findSome?_cons, List.findSome?_cons, ih]
  | insert hl _ ih => rw [List.findSome?_cons, hl.valueOn?_eq_none hk, ih]
  | delete hl _ ih => rw [List.findSome?_cons, hl.valueOn?_eq_none hk, ih]

/-! ### The main result -/

/-- The first of some values that is there and not empty, or else the default. -/
def firstNonEmpty (values : List (Option String)) (default : String) : String :=
  ((values.filterMap id).find? (· != "")).getD default

private theorem findSome?_chosen? (d : Directives) (keys : List String) :
    keys.findSome? (TexProgram.chosen? d) = ((keys.map d.get?).filterMap id).find? (· != "") := by
  rw [List.filterMap_map, ← List.head?_filter, List.filter_filterMap, List.head?_filterMap]
  rfl

/-- Directives whose values are trimmed choose the program that the first value names, as it is. -/
theorem TexProgram.requested_eq {d : Directives} (s : Settings)
    (hd : ∀ k v, d.get? k = some v → trim v.toList = v.toList) :
    requested d s = firstNonEmpty (directiveKeys.map d.get?) s.latexProgram := by
  rw [requested, firstNonEmpty, ← findSome?_chosen?]
  cases h : directiveKeys.findSome? (chosen? d) with
  | none => rfl
  | some v =>
    obtain ⟨k, -, hk⟩ := List.exists_of_findSome?_eq_some h
    have hv : d.get? k = some v := (Option.filter_eq_some_iff.mp hk).1
    change String.ofList (trim v.toList) = v
    rw [hd k v hv, String.ofList_toList]

private theorem WeaveEngine.requested_eq (d : Directives) (s : Settings) :
    requested d s = firstNonEmpty [d.get? directiveKey] s.weaveEngine := by
  rw [requested, firstNonEmpty]
  cases d.get? directiveKey with
  | none => rfl
  | some v =>
    cases hv : v != "" <;> simp [hv, Option.filter]

/-- **Only the directives of the header choose.** The program and the engine of a document are the
first values, not empty, that the first directives of their keys have in the header. Comments by
which nothing is chosen may come and go there, and behind the header anything may stand. -/
theorem choices_ofText (text : List Char) (s : Settings) :
    (∃ program tsProgram weave : Option String,
      (∀ v, program = some v ↔ SaysFirst (headerOf (lines text)) "tex program" v) ∧
      (∀ v, tsProgram = some v ↔ SaysFirst (headerOf (lines text)) "tex ts-program" v) ∧
      (∀ v, weave = some v ↔ SaysFirst (headerOf (lines text)) "rnw weave" v) ∧
      TexProgram.requested (ofText text) s = firstNonEmpty [program, tsProgram] s.latexProgram ∧
      WeaveEngine.requested (ofText text) s = firstNonEmpty [weave] s.weaveEngine) ∧
    ∀ text', SameChoices (headerOf (lines text)) (headerOf (lines text')) →
      TexProgram.requested (ofText text') s = TexProgram.requested (ofText text) s ∧
      WeaveEngine.requested (ofText text') s = WeaveEngine.requested (ofText text) s := by
  have hprogram (text : List Char) : TexProgram.requested (ofText text) s =
      firstNonEmpty (TexProgram.directiveKeys.map (ofText text).get?) s.latexProgram :=
    TexProgram.requested_eq s fun _ _ h => (get?_ofText_eq_some_iff.mp h).trim_eq
  refine ⟨⟨_, _, _, fun _ => get?_ofText_eq_some_iff, fun _ => get?_ofText_eq_some_iff,
    fun _ => get?_ofText_eq_some_iff, hprogram text, WeaveEngine.requested_eq _ s⟩,
    fun text' hh => ?_⟩
  have hget (k : String) (hk : k ∈ choiceKeys) : (ofText text').get? k = (ofText text).get? k := by
    rw [get?_ofText, get?_ofText, hh.findSome?_eq hk]
  have hkeys : TexProgram.directiveKeys.map (ofText text').get? =
      TexProgram.directiveKeys.map (ofText text).get? :=
    List.map_congr_left fun k hk => hget k (List.mem_append_left _ hk)
  constructor
  · rw [hprogram, hprogram, hkeys]
  · rw [WeaveEngine.requested_eq, WeaveEngine.requested_eq,
      hget _ (List.mem_append_right _ List.mem_cons_self)]

/-- The lines of a document whose preferred directive has no value, around some comments. -/
def sampleLines (comments body : List (List Char)) : List (List Char) :=
  "%!tex ts-program = XeLaTeX ".toList :: "".toList :: comments ++
    "% !TeX program =".toList :: "%% !TEX Program = lualatex".toList ::
      "% !Rnw weave = knitr".toList :: body

/-- A document that has what looks like a directive behind its header. -/
def sampleText : List Char :=
  joinWith ['\n'] (sampleLines [] ["text".toList, "%!Rnw weave = x".toList])

/-- A document that has a directive with some other key. -/
def otherText : List Char := joinWith ['\n'] (sampleLines ["% !BIB program = biber".toList] [])

theorem choices_ofText_sample :
    SameChoices (headerOf (lines sampleText)) (headerOf (lines otherText)) ∧
    TexProgram.requested (ofText sampleText) {} = "XeLaTeX" ∧
    WeaveEngine.requested (ofText sampleText) {} = "knitr" ∧
    TexProgram.requested (ofText otherText) {} = "XeLaTeX" ∧
    WeaveEngine.requested (ofText otherText) {} = "knitr" := by
  have hidle : IsIdleComment "% !BIB program = biber".toList := by
    refine ⟨isComment_iff.mpr (by decide), fun k hk => valueOn?_eq_none_iff.mp ?_⟩
    revert k
    decide +kernel
  have hheader : headerOf (lines sampleText) = sampleLines [] [] := by decide +kernel
  have hheader' :
      headerOf (lines otherText) = sampleLines ["% !BIB program = biber".toList] [] := by
    decide +kernel
  have hsame : SameChoices (headerOf (lines sampleText)) (headerOf (lines otherText)) := by
    rw [hheader, hheader']
    exact .keep _ (.keep _ (.insert hidle (.keep _ (.keep _ (.keep _ .nil)))))
  have hprogram : TexProgram.requested (ofText sampleText) {} = "XeLaTeX" := by decide +kernel
  have hweave : WeaveEngine.requested (ofText sampleText) {} = "knitr" := by decide +kernel
  obtain ⟨hprogram', hweave'⟩ := (choices_ofText sampleText {}).2 otherText hsame
  exact ⟨hsame, hprogram, hweave, hprogram'.trans hprogram, hweave'.trans hweave⟩

end Galley
