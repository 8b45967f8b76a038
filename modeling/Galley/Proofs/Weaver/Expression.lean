import Galley.Proofs.Weaver

/-!
# The expression that R evaluates

R gets the name of the document within an expression, as a string in single quotes. `pieces?`
reads an expression by the rules for such strings: a backslash stands for the backslash or the
quote behind it, and the first other quote ends the string. Whatever the name is, it is read back,
and what stands around it is the code of the engine (`pieces?_expression`): no name ends the string
early or goes on behind it. The weaver starts R with such an expression and with nothing else
(`pieces?_of_viaR`).
-/

namespace Galley

namespace RString

/-! ### Reading -/

/-- A piece of an expression. -/
inductive Piece where
  | code (text : List Char)
  /-- A string in single quotes, by its value. -/
  | string (value : List Char)
  deriving DecidableEq, Repr

/-- What a character of an expression belongs to. -/
inductive Mode where
  | code
  | string
  /-- A string, behind a backslash. -/
  | escape
  deriving DecidableEq, Repr

/-- The characters that start a literal of another kind or a comment. -/
def openers : List Char := "\"`#".toList

/-- The letters that turn a string behind them into one without escapes. -/
def rawMarks : List Char := ['r', 'R']

/-- The pieces of a text, `soFar` being what is read already of the first one. -/
def readPieces (mode : Mode) (soFar : List Char) : List Char → Option (List Piece)
  | [] => if mode = .code then some [.code soFar] else none
  | c :: r =>
    match mode with
    | .code =>
      if c = '\'' then
        if soFar.getLast?.any (· ∈ rawMarks) then none
        else (.code soFar :: ·) <$> readPieces .string [] r
      else if c ∈ openers then none
      else readPieces .code (soFar ++ [c]) r
    | .string =>
      if c = '\'' then (.string soFar :: ·) <$> readPieces .code [] r
      else if c = '\\' then readPieces .escape soFar r
      else readPieces .string (soFar ++ [c]) r
    | .escape =>
      if c = '\\' ∨ c = '\'' then readPieces .string (soFar ++ [c]) r else none

/-- The pieces of an expression, unless a string in it is not ended or has another escape, or there
is a literal of another kind or a comment. -/
def pieces? (expression : String) : Option (List Piece) := readPieces .code [] expression.toList

/-! ### What is escaped is read back -/

variable {s w r : List Char}

private theorem readPieces_code (h : ∀ c ∈ w, c ≠ '\'' ∧ c ∉ openers) (soFar : List Char) :
    readPieces .code soFar (w ++ r) = readPieces .code (soFar ++ w) r := by
  induction w generalizing soFar with
  | nil => rw [List.nil_append, List.append_nil]
  | cons c w ih =>
    obtain ⟨⟨hquote, hopener⟩, hw⟩ := List.forall_mem_cons.mp h
    rw [List.cons_append, readPieces]
    simp only [if_neg hquote, if_neg hopener]
    rw [ih hw, List.append_assoc, List.singleton_append]

/-- A text that is escaped is one string up to the quote behind it, whatever comes then. -/
theorem readPieces_escape (value : List Char) :
    readPieces .string value (escape s ++ '\'' :: r) =
      (.string (value ++ s) :: ·) <$> readPieces .code [] r := by
  induction s generalizing value with
  | nil =>
    rw [escape, List.flatMap_nil, List.nil_append, List.append_nil, readPieces]
    rfl
  | cons c s ih =>
    have hone : ∀ q, readPieces .string value (escapeChar c ++ q) =
        readPieces .string (value ++ [c]) q := by
      intro q
      rw [escapeChar]
      split
      · next hc =>
        -- the backslash in front makes the character one of the string
        rw [List.cons_append, List.singleton_append, readPieces]
        change readPieces .escape value (c :: q) = _
        rw [readPieces]
        exact if_pos hc
      · next hc =>
        rw [not_or] at hc
        rw [List.singleton_append, readPieces]
        simp only [if_neg hc.1, if_neg hc.2]
    rw [escape, List.flatMap_cons, List.append_assoc, hone, ← escape, ih, List.append_assoc,
      List.singleton_append]

/-- A text with `mark` put in front of each `c`. -/
def markEach (mark c : Char) (s : List Char) : List Char :=
  s.flatMap fun d => if d = c then [mark, d] else [d]

/-- Escaping is done in two passes over the text, the first one for the backslashes: none that the
second one writes is taken for one of the text. -/
private theorem escape_eq_markEach (s : List Char) :
    escape s = markEach '\\' '\'' (markEach '\\' '\\' s) := by
  rw [escape, markEach, markEach, List.flatMap_assoc]
  refine List.flatMap_congr fun c _ => ?_
  by_cases hb : c = '\\'
  · subst hb
    rfl
  · by_cases hq : c = '\'' <;> simp [escapeChar, hb, hq]

end RString

namespace WeaveEngine

/-- The code in front of the name of the document. -/
def before : WeaveEngine → String
  | .sweave => "utils::Sweave("
  | .knitr => "knitr::opts_knit$set(concordance = TRUE); knitr::knit("

/-- The code behind the name of the document. -/
def behind : WeaveEngine → String
  | .sweave => ", concordance = TRUE)"
  | .knitr => ")"

private theorem toList_expression (engine : WeaveEngine) (document : String) :
    (engine.expression document).toList = engine.before.toList ++
      '\'' :: (RString.escape document.toList ++ '\'' :: engine.behind.toList) := by
  have hopening : engine.opening.toList = engine.before.toList ++ ['\''] := by
    cases engine <;> decide
  have hclosing : engine.closing.toList = '\'' :: engine.behind.toList := by
    cases engine <;> decide
  rw [expression, String.toList_append, String.toList_append, String.toList_ofList, hopening,
    hclosing, List.append_assoc, List.append_assoc, List.singleton_append]

/-- **The name of a document stays in its string**: the expression is read as the code of the
engine around one string, which is the name. -/
theorem pieces?_expression (engine : WeaveEngine) (document : String) :
    RString.pieces? (engine.expression document) =
      some [.code engine.before.toList, .string document.toList, .code engine.behind.toList] := by
  have hbefore : ∀ c ∈ engine.before.toList, c ≠ '\'' ∧ c ∉ RString.openers := by
    cases engine <;> decide
  have hbehind : ∀ c ∈ engine.behind.toList, c ≠ '\'' ∧ c ∉ RString.openers := by
    cases engine <;> decide
  have hraw : engine.before.toList.getLast?.any (· ∈ RString.rawMarks) = false := by
    cases engine <;> decide
  have hrest : RString.readPieces .code [] engine.behind.toList =
      some [.code engine.behind.toList] := by
    have hcode := RString.readPieces_code (r := []) hbehind []
    rwa [List.append_nil, List.nil_append] at hcode
  rw [RString.pieces?, toList_expression, RString.readPieces_code hbefore, List.nil_append,
    RString.readPieces]
  simp only [if_true, hraw, Bool.false_eq_true, if_false]
  rw [RString.readPieces_escape, hrest, List.nil_append]
  rfl

end WeaveEngine

namespace Weaver

open Work

variable {host : Host} {programs : Programs} {s : Settings} {target : Path} {d : Directives}
  {past : List Note} {t : Tree}

/-- The starts of the weaver in a tree: one of R, if the engine is known and R is located. -/
def startsIn (host : Host) (s : Settings) (target : Path) (d : Directives) (t : Tree) :
    List Start :=
  match WeaveEngine.ofName? (WeaveEngine.requested d s), host.which t s.rscript with
  | some engine, some rscript => [engineStart engine rscript target]
  | _, _ => []

private theorem silent_collect {here : Path} :
    Leads (collect here target).run past t fun _ notes _ => startsOf notes = [] := by
  refine leads_lift_bind (leads_tree ?_)
  split
  · exact leads_stage_pure rfl
  · split
    · exact leads_stage_pure rfl
    · exact leads_throw rfl
    · exact leads_lift_bind (leads_logWeaving (leads_stage_pure rfl))

theorem leads_viaR_starts : Leads (viaR host programs s target d).run past t fun _ notes _ =>
    startsOf notes = startsIn host s target d t := by
  rw [viaR, startsIn]
  cases WeaveEngine.ofName? (WeaveEngine.requested d s) with
  | none => exact leads_stage_pure rfl
  | some engine =>
    refine leads_lift_bind (leads_tree ?_)
    cases host.which t s.rscript with
    | none => exact leads_stage_pure rfl
    | some rscript =>
      refine leads_lift_bind (leads_logWeaving (leads_lift_bind (leads_logWeaving ?_)))
      refine leads_lift_bind (leads_start ?_)
      -- from here on R is started, and nothing else is
      split
      · exact leads_stage_pure rfl
      · exact leads_throw rfl
      · split
        · refine silent_collect.imp fun _ notes _ hn => ?_
          simp only [startsOf_append, hn]
          rfl
        · refine leads_lift_bind (leads_logWeaving ?_)
          dsimp only
          split <;> exact leads_stage_pure rfl

/-- **No name of a document gets out of its string.** Whatever weaving starts is R with one
expression, and this is the code of the engine that is asked for around a string whose value is the
name of the document; between its quotes the name stands with its backslashes doubled and then its
quotes marked. R is started once if the engine is known and R is located. -/
theorem pieces?_of_viaR (host : Host) (programs : Programs) (s : Settings) (target : Path)
    (d : Directives) (past : List Note) (t : Tree) :
    let starts := startsOf ((viaR host programs s target d).run past t).events
    (∀ start ∈ starts, ∃ (engine : WeaveEngine) (rscript expression : String),
      WeaveEngine.ofName? (WeaveEngine.requested d s) = some engine ∧
      start.command = [rscript, "-e", expression] ∧
      expression.toList = engine.before.toList ++ '\'' ::
        (RString.markEach '\\' '\'' (RString.markEach '\\' '\\' target.name.toList) ++
          '\'' :: engine.behind.toList) ∧
      RString.pieces? expression = some [.code engine.before.toList, .string target.name.toList,
        .code engine.behind.toList]) ∧
    ∀ engine rscript, WeaveEngine.ofName? (WeaveEngine.requested d s) = some engine →
      host.which t s.rscript = some rscript → starts.length = 1 := by
  have hstarts : startsOf ((viaR host programs s target d).run past t).events =
      startsIn host s target d t := leads_viaR_starts
  simp only [hstarts, startsIn]
  refine ⟨fun start hs => ?_, fun engine rscript he hw => ?_⟩
  · split at hs
    · next engine rscript he hw =>
      obtain rfl := List.mem_singleton.mp hs
      refine ⟨engine, rscript, _, he, rfl, ?_, engine.pieces?_expression _⟩
      rw [← RString.escape_eq_markEach, engine.toList_expression]
    · cases hs
  · rw [he, hw]
    rfl

/-- A name that would end the string and go on with code of its own. -/
theorem pieces?_of_viaR_hostile :
    let target : Path := ⟨.root, ["\\'); q('.Rnw"]⟩
    let starts := startsOf ((viaR atRoot (weaving "") { rscript := "/R" } target {}).run []
      equipped).events
    starts.length = 1 ∧ ∀ start ∈ starts, ∃ rscript expression,
      start.command = [rscript, "-e", expression] ∧
      RString.pieces? expression = some [.code "utils::Sweave(".toList,
        .string "\\'); q('.Rnw".toList, .code ", concordance = TRUE)".toList] := by
  intro target starts
  obtain ⟨hall, hone⟩ :=
    pieces?_of_viaR atRoot (weaving "") { rscript := "/R" } target {} [] equipped
  refine ⟨hone .sweave "/R" (by decide +kernel) (by decide +kernel), fun start hs => ?_⟩
  obtain ⟨engine, rscript, expression, he, hc, -, hp⟩ := hall start hs
  have hsweave : WeaveEngine.ofName? (WeaveEngine.requested {} { rscript := "/R" }) =
      some .sweave := by
    decide +kernel
  obtain rfl := Option.some.inj (hsweave.symm.trans he)
  exact ⟨rscript, expression, hc, hp⟩

end Weaver

/-- A name with quotes and a backslash in it. -/
example : RString.pieces? "f('it\\'s a \\\\')" =
    some [.code ['f', '('], .string "it's a \\".toList, .code [')']] := by
  decide +kernel

end Galley
