import Galley.Directives
import Galley.Proofs.Text.Lines
import Galley.Proofs.Text.Words
import Mathlib.Data.Option.Basic

/-!
# Printed directives

A directive may be printed in many ways: with several percent signs, and with blanks wherever they
do no harm. `PrintedDirective` has the parts of such a line. Reading a trimmed line finds a
directive just if the line is a directive in print, and it finds its key and its value
(`ofLine?_trim_eq_some_iff`).

No part can be cut in another way, because no character of a name is blank, and the exclamation mark
and the equals sign are neither. The value ends where the line does: an equals sign or a percent
sign in it is a part of it.
-/

namespace Galley.Directives

open Text

/-! ### Runs of blanks -/

/-- A run of blanks, which may be empty. -/
structure Blanks where
  text : List Char
  isBlank_of_mem : ∀ c ∈ text, isBlank c = true

namespace Blanks

/-- The blanks in front of a text. -/
def before (s : List Char) : Blanks := ⟨s.takeWhile isBlank, fun _ hc => List.mem_takeWhile_imp hc⟩

private theorem before_append_trimLeft (s : List Char) : (before s).text ++ trimLeft s = s :=
  List.takeWhile_append_dropWhile

private theorem trimLeft_append (b : Blanks) {s : List Char}
    (h : ∀ c ∈ s.head?, isBlank c = false) : trimLeft (b.text ++ s) = s :=
  dropWhile_append_of_head? b.isBlank_of_mem h

end Blanks

/-- A condition on the first character of a text holds if it holds in the front part, and behind an
empty front part. -/
private theorem forall_head?_append {p : Char → Prop} {s t : List Char} (hs : ∀ c ∈ s, p c)
    (ht : s = [] → ∀ c ∈ t.head?, p c) : ∀ c ∈ (s ++ t).head?, p c := by
  cases s with
  | nil => exact ht rfl
  | cons d s =>
    rintro _ ⟨⟩
    exact hs d List.mem_cons_self

private theorem takeWhile_ne_nil {p : Char → Bool} {s : List Char} (h : s.head?.any p = true) :
    s.takeWhile p ≠ [] := by
  cases s with
  | nil => cases h
  | cons c s =>
    have hc : p c = true := h
    simp [hc]

/-! ### Keys in print -/

/-- The parts of a directive up to the equals sign. -/
structure PrintedKey where
  percents : List Char
  behindPercents : Blanks
  behindMark : Blanks
  scope : List Char
  behindScope : Blanks
  variableName : List Char
  behindVariable : Blanks
  percents_ne_nil : percents ≠ []
  eq_percent_of_mem : ∀ c ∈ percents, c = '%'
  scope_ne_nil : scope ≠ []
  isWordChar_of_mem : ∀ c ∈ scope, isWordChar c = true
  behindScope_ne_nil : behindScope.text ≠ []
  variableName_ne_nil : variableName ≠ []
  isNameChar_of_mem : ∀ c ∈ variableName, isNameChar c = true

namespace PrintedKey

variable (p : PrintedKey)

/-- The key in lower case. -/
def key : String := lower (String.ofList p.scope) ++ " " ++ lower (String.ofList p.variableName)

/-- The text from the variable on, in front of what is behind the equals sign. -/
def variableText (behind : List Char) : List Char :=
  p.variableName ++ (p.behindVariable.text ++ '=' :: behind)

/-- The text from the scope on. -/
def scopeText (behind : List Char) : List Char :=
  p.scope ++ (p.behindScope.text ++ p.variableText behind)

/-- The key in print, in front of what is behind the equals sign. -/
def text (behind : List Char) : List Char :=
  p.percents ++ (p.behindPercents.text ++ '!' :: (p.behindMark.text ++ p.scopeText behind))

/-- Nothing of the key depends on what is behind the equals sign. -/
private theorem exists_text_eq : ∃ front, ∀ behind, p.text behind = front ++ '=' :: behind :=
  ⟨p.percents ++ p.behindPercents.text ++ '!' :: p.behindMark.text ++ p.scope ++
    p.behindScope.text ++ p.variableName ++ p.behindVariable.text, fun behind => by
      simp [text, scopeText, variableText]⟩

private theorem isBlank_of_mem_scope {c : Char} (h : c ∈ p.scope) : isBlank c = false :=
  isBlank_of_isNameChar (by rw [isNameChar, p.isWordChar_of_mem c h, Bool.true_or])

variable (behind : List Char)

theorem head?_text : (p.text behind).head? = some '%' := by
  obtain ⟨c, r, hp⟩ := List.exists_cons_of_ne_nil p.percents_ne_nil
  rw [text, hp, List.cons_append, List.head?_cons, p.eq_percent_of_mem c (hp ▸ List.mem_cons_self)]

private theorem trimLeft_dropWhile_text : trimLeft ((p.text behind).dropWhile (· = '%')) =
    '!' :: (p.behindMark.text ++ p.scopeText behind) := by
  have hblank : ∀ c ∈ p.behindPercents.text, decide (c = '%') = false := by
    intro c hc
    refine decide_eq_false ?_
    rintro rfl
    exact absurd (p.behindPercents.isBlank_of_mem _ hc) (by decide)
  have hdrop : (p.text behind).dropWhile (· = '%') =
      p.behindPercents.text ++ '!' :: (p.behindMark.text ++ p.scopeText behind) :=
    dropWhile_append_of_head? (fun c hc => decide_eq_true (p.eq_percent_of_mem c hc))
      (forall_head?_append hblank fun _ => by simp)
  rw [hdrop, Blanks.trimLeft_append _ (by simp; decide)]

private theorem trimLeft_scopeText : trimLeft (p.behindMark.text ++ p.scopeText behind) =
    p.scopeText behind :=
  p.behindMark.trimLeft_append <| forall_head?_append (fun _ => p.isBlank_of_mem_scope)
    fun hnil => absurd hnil p.scope_ne_nil

/-- The scope ends at the first blank. -/
private theorem span_scopeText : (p.scopeText behind).takeWhile isWordChar = p.scope ∧
    (p.scopeText behind).dropWhile isWordChar = p.behindScope.text ++ p.variableText behind := by
  have hhead : ∀ c ∈ (p.behindScope.text ++ p.variableText behind).head?, isWordChar c = false :=
    forall_head?_append (fun c hc => isWordChar_of_isBlank (p.behindScope.isBlank_of_mem c hc))
      fun hnil => absurd hnil p.behindScope_ne_nil
  exact ⟨takeWhile_append_of_head? p.isWordChar_of_mem hhead,
    dropWhile_append_of_head? p.isWordChar_of_mem hhead⟩

private theorem trimLeft_variableText : trimLeft (p.behindScope.text ++ p.variableText behind) =
    p.variableText behind :=
  p.behindScope.trimLeft_append <|
    forall_head?_append (fun c hc => isBlank_of_isNameChar (p.isNameChar_of_mem c hc))
      fun hnil => absurd hnil p.variableName_ne_nil

/-- The variable ends at the first blank, or at the equals sign. -/
private theorem span_variableText : (p.variableText behind).takeWhile isNameChar = p.variableName ∧
    trimLeft ((p.variableText behind).dropWhile isNameChar) = '=' :: behind := by
  have hhead : ∀ c ∈ (p.behindVariable.text ++ '=' :: behind).head?, isNameChar c = false :=
    forall_head?_append
      (fun c hc => isNameChar_of_isBlank (p.behindVariable.isBlank_of_mem c hc))
      fun _ => by simp; decide
  refine ⟨takeWhile_append_of_head? p.isNameChar_of_mem hhead, ?_⟩
  rw [variableText, dropWhile_append_of_head? p.isNameChar_of_mem hhead,
    Blanks.trimLeft_append _ (by simp; decide)]

end PrintedKey

/-- A key in print is read, and the value is what is behind it, trimmed. -/
private theorem ofLine?_text (p : PrintedKey) (behind : List Char) :
    ofLine? (p.text behind) = some (p.key, String.ofList (trim behind)) := by
  have hscope := p.span_scopeText behind
  have hvariable := p.span_variableText behind
  have hblank : (p.behindScope.text ++ p.variableText behind).head?.any isBlank = true := by
    obtain ⟨c, r, hb⟩ := List.exists_cons_of_ne_nil p.behindScope_ne_nil
    rw [hb]
    exact p.behindScope.isBlank_of_mem c (hb ▸ List.mem_cons_self)
  rw [ofLine?]
  simp only [Option.bind_eq_bind, PrintedKey.head?_text, PrintedKey.trimLeft_dropWhile_text,
    dropLead?, if_pos, Option.bind_some, PrintedKey.trimLeft_scopeText, hscope, hblank,
    PrintedKey.trimLeft_variableText, hvariable, guard, ne_eq, p.scope_ne_nil,
    p.variableName_ne_nil, not_false_eq_true, and_self]
  rfl

/-- What is read as a directive is one in print. -/
theorem exists_text_of_ofLine? {s : List Char} {k v : String} (h : ofLine? s = some (k, v)) :
    ∃ (p : PrintedKey) (behind : List Char), s = p.text behind ∧ k = p.key ∧
      v = String.ofList (trim behind) := by
  rw [ofLine?] at h
  obtain ⟨⟨⟩, hhead, h⟩ := Option.bind_eq_some_iff.mp h
  obtain ⟨rest, hmark, h⟩ := Option.bind_eq_some_iff.mp h
  obtain ⟨⟨⟩, hscope, h⟩ := Option.bind_eq_some_iff.mp h
  obtain ⟨⟨⟩, hvariable, h⟩ := Option.bind_eq_some_iff.mp h
  obtain ⟨behind, hequals, h⟩ := Option.bind_eq_some_iff.mp h
  obtain ⟨rfl, rfl⟩ := Prod.mk.inj (Option.some.inj h)
  rw [Option.guard_eq_some'] at hhead hscope hvariable
  have hmark : trimLeft (s.dropWhile (· = '%')) = '!' :: rest := dropLead?_eq_some_iff.mp hmark
  have hequals := dropLead?_eq_some_iff.mp hequals
  have hpercent : s.head?.any (· = '%') = true := by
    rw [hhead]
    rfl
  let variableOn := trimLeft ((trimLeft rest).dropWhile isWordChar)
  let p : PrintedKey :=
    { percents := s.takeWhile (· = '%')
      behindPercents := .before (s.dropWhile (· = '%'))
      behindMark := .before rest
      scope := (trimLeft rest).takeWhile isWordChar
      behindScope := .before ((trimLeft rest).dropWhile isWordChar)
      variableName := variableOn.takeWhile isNameChar
      behindVariable := .before (variableOn.dropWhile isNameChar)
      percents_ne_nil := takeWhile_ne_nil hpercent
      eq_percent_of_mem := fun c hc => by simpa using List.mem_takeWhile_imp hc
      scope_ne_nil := hscope.1
      isWordChar_of_mem := fun c hc => List.mem_takeWhile_imp hc
      behindScope_ne_nil := takeWhile_ne_nil hscope.2
      variableName_ne_nil := hvariable
      isNameChar_of_mem := fun c hc => List.mem_takeWhile_imp hc }
  have hvariableText : p.variableText behind = variableOn := by
    rw [PrintedKey.variableText, ← List.singleton_append, ← hequals,
      Blanks.before_append_trimLeft, List.takeWhile_append_dropWhile]
  have hscopeText : p.scopeText behind = trimLeft rest := by
    rw [PrintedKey.scopeText, hvariableText, Blanks.before_append_trimLeft,
      List.takeWhile_append_dropWhile]
  have htext : p.text behind = s := by
    rw [PrintedKey.text, hscopeText, Blanks.before_append_trimLeft, ← hmark,
      Blanks.before_append_trimLeft, List.takeWhile_append_dropWhile]
  exact ⟨p, behind, htext.symm, rfl, rfl⟩

/-! ### Directives in print -/

/-- The parts of a line that is a directive. -/
structure PrintedDirective extends PrintedKey where
  margin : Blanks
  behindEquals : Blanks
  value : List Char
  behindValue : Blanks
  trim_value : trim value = value

namespace PrintedDirective

/-- The line. -/
def line (p : PrintedDirective) : List Char :=
  p.margin.text ++ p.text (p.behindEquals.text ++ (p.value ++ p.behindValue.text))

/-- The key and the value. -/
def pair (p : PrintedDirective) : String × String := (p.key, String.ofList p.value)

end PrintedDirective

/-- A line is trimmed in front of the key and behind the equals sign. -/
private theorem trim_text (p : PrintedKey) (margin : Blanks) (behind : List Char) :
    trim (margin.text ++ p.text behind) = p.text (trimRight behind) := by
  have hleft : trimLeft (p.text behind) = p.text behind := by
    refine dropWhile_eq_self_iff.mpr ?_
    rw [PrintedKey.head?_text]
    rintro _ ⟨⟩
    decide
  obtain ⟨front, hfront⟩ := p.exists_text_eq
  rw [trim_append_left margin.isBlank_of_mem, trim, hleft, hfront, hfront,
    trimRight_append_cons (by decide)]

/-- **Directives are read as they are printed**, and nothing else is read as one. -/
theorem ofLine?_trim_eq_some_iff {s : List Char} {kv : String × String} :
    ofLine? (trim s) = some kv ↔ ∃ p : PrintedDirective, p.line = s ∧ p.pair = kv := by
  constructor
  · intro h
    obtain ⟨q, behind, hq, hk, hv⟩ := exists_text_of_ofLine? h
    obtain ⟨l, r, hs, hl, hr⟩ := exists_eq_append_trim s
    obtain ⟨l', r', hb, hl', hr'⟩ := exists_eq_append_trim behind
    obtain ⟨front, hfront⟩ := q.exists_text_eq
    -- What is trimmed off the line is the margin and, behind the value, a part of its blanks.
    let p : PrintedDirective :=
      { q with
        margin := ⟨l, hl⟩
        behindEquals := ⟨l', hl'⟩
        value := trim behind
        behindValue := ⟨r' ++ r, List.forall_mem_append.mpr ⟨hr', hr⟩⟩
        trim_value := trim_trim behind }
    have hline : p.line = s := calc
      p.line = l ++ q.text (l' ++ (trim behind ++ (r' ++ r))) := rfl
      _ = l ++ (q.text (l' ++ (trim behind ++ r')) ++ r) := by rw [hfront, hfront]; simp
      _ = s := by rw [← hb, ← hq, ← hs]
    exact ⟨p, hline, Prod.ext hk.symm hv.symm⟩
  · rintro ⟨p, rfl, rfl⟩
    rw [PrintedDirective.line, trim_text, ofLine?_text, trim_trimRight,
      trim_append_left p.behindEquals.isBlank_of_mem,
      trim_append_right p.behindValue.isBlank_of_mem, p.trim_value, PrintedDirective.pair]

end Galley.Directives
