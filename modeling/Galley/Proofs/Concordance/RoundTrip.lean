import Galley.Proofs.Concordance.Continuations
import Galley.Proofs.Text.Numeral
import Galley.Proofs.Text.Words
import Mathlib.Data.List.Basic
import Mathlib.Tactic.Ring

/-!
# Concordance files that are read again

A printed concordance file is a list of entries with other text around them. `PrintedFile.text`
prints it, and `PrintedEntry.concordance` is what an entry means. `readAll_text` is the main
result: reading the text of a file gives what its entries mean, in order.

There are several ways to write one entry. Names may hold anything but what ends a field, an entry
or a line; an offset of zero may be left out; the source lines may be cut into runs at will; and
numbers are kept apart by blanks and continuations.
-/

namespace Galley.Concordance

open Text

/-! ### Printed files and their meaning -/

/-- A name that can stand in an entry. -/
structure EntryName where
  text : List Char
  ne_nil : text ≠ []
  trimmed : trim text = text
  colon_notMem : ':' ∉ text
  brace_notMem : '}' ∉ text
  percent_notMem : '%' ∉ text

/-- A whole number that has no more digits than are read. -/
structure ShortInt where
  value : Int
  natAbs_lt : value.natAbs < Nat.pow 10 digitLimit

/-- The text of a number. -/
def ShortInt.text (n : ShortInt) : List Char := signedDecimal n.value

/-- What keeps two numbers apart: blanks and continuations, at least one of them. -/
structure Gap where
  pieces : List GapPiece
  ne_nil : pieces ≠ []

/-- A number of source lines, each `step` further on. -/
structure PrintedRun where
  count : ShortInt
  count_nonneg : 0 ≤ count.value
  step : ShortInt
  /-- What stands in front of the count. -/
  gapBefore : Gap
  /-- What stands between the count and the step. -/
  gapBetween : Gap

/-- One entry of a concordance file. -/
structure PrintedEntry where
  output : EntryName
  input : EntryName
  /-- The offset. It is zero if it is left out. -/
  offset : Option ShortInt
  /-- What stands in front of the numbers. -/
  opening : List GapPiece
  /-- The first source line. -/
  first : ShortInt
  /-- How the other source lines follow it. -/
  runs : List PrintedRun

/-- A text in which no entry starts. -/
structure Interlude where
  text : List Char
  no_entry : ¬ entryLead <:+: text

/-- A concordance file: entries, each with the text behind it. -/
structure PrintedFile where
  preamble : Interlude
  entries : List (PrintedEntry × Interlude)

/-- Numbers, each behind a gap. -/
def spaced (numbers : List (Gap × ShortInt)) : List Char :=
  numbers.flatMap fun (gap, n) => gapText gap.pieces ++ n.text

/-- The numbers of a run. -/
def PrintedRun.numbers (r : PrintedRun) : List (Gap × ShortInt) :=
  [(r.gapBefore, r.count), (r.gapBetween, r.step)]

/-- The text of the numbers of an entry. -/
def PrintedEntry.numbersText (e : PrintedEntry) : List Char :=
  gapText e.opening ++ (e.first.text ++ spaced (e.runs.flatMap PrintedRun.numbers))

/-- The text of the offset. -/
def offsetText : Option ShortInt → List Char
  | none => []
  | some n => "ofs ".toList ++ n.text ++ [':']

/-- The text of an entry up to its numbers. -/
def PrintedEntry.fieldsText (e : PrintedEntry) : List Char :=
  "concordance".toList ++ ':' :: (e.output.text ++ ':' :: (e.input.text ++ ':' ::
    offsetText e.offset))

/-- The text of an entry. -/
def PrintedEntry.text (e : PrintedEntry) : List Char :=
  entryLead ++ (e.fieldsText ++ (e.numbersText ++ ['}']))

/-- The text of entries with the texts behind them. -/
def entriesText (entries : List (PrintedEntry × Interlude)) : List Char :=
  entries.flatMap fun (e, behind) => e.text ++ behind.text

/-- The text of a concordance file. -/
def PrintedFile.text (f : PrintedFile) : List Char := f.preamble.text ++ entriesText f.entries

/-- The steps from one source line to the next. -/
def PrintedRun.steps (r : PrintedRun) : List Int := List.replicate r.count.value.toNat r.step.value

/-- What an entry means: each source line is the one before and a step. -/
def PrintedEntry.concordance (baseDir : Path) (e : PrintedEntry) : Concordance where
  outputFile := baseDir.child (String.ofList e.output.text)
  inputFile := baseDir.child (String.ofList e.input.text)
  lines := (e.runs.flatMap PrintedRun.steps).scanl (· + ·) e.first.value
  offset := (e.offset.map ShortInt.value).getD 0

/-! ### Numbers -/

namespace ShortInt

variable (n : ShortInt)

private theorem text_ne_nil : n.text ≠ [] := signedDecimal_ne_nil _

private theorem readInt_text : readInt n.text = .ok n.value := readInt_signedDecimal n.natAbs_lt

variable {n} {c : Char}

private theorem isBlank_of_mem_text (h : c ∈ n.text) : isBlank c = false :=
    isBlank_of_mem_signedDecimal h

theorem notMem_text (hm : c ≠ '-') (hd : c.isDigit = false) : c ∉ n.text := by
  intro h
  obtain h | h := mem_signedDecimal h
  · exact hm h
  · simp [hd] at h

/-- A number does not start with a blank, whatever is behind it. -/
theorem isBlank_of_head_text_append {t : List Char} (h : c ∈ (n.text ++ t).head?) :
    isBlank c = false := by
  rw [List.head?_append_of_ne_nil _ n.text_ne_nil] at h
  exact isBlank_of_mem_text (List.mem_of_mem_head? h)

end ShortInt

private theorem joinContinuations_spaced_cons (gap : Gap) (n : ShortInt)
    (ns : List (Gap × ShortInt)) : joinContinuations (spaced ((gap, n) :: ns)) =
      joinContinuations (gapText gap.pieces) ++ (n.text ++ joinContinuations (spaced ns)) := by
  rw [spaced, List.flatMap_cons, List.append_assoc,
    joinContinuations_append _ fun _ => ShortInt.isBlank_of_head_text_append,
    joinContinuations_append_of_notMem (ShortInt.notMem_text (by decide) (by decide)), ← spaced]

/-- Joined numbers are made of blanks, signs and digits. -/
theorem notMem_join_spaced {c : Char} (hb : isBlank c = false) (hm : c ≠ '-')
    (hd : c.isDigit = false) (ns : List (Gap × ShortInt)) :
    c ∉ joinContinuations (spaced ns) := by
  induction ns with
  | nil => simp [spaced, joinContinuations_nil]
  | cons pair ns ih =>
    obtain ⟨gap, n⟩ := pair
    rw [joinContinuations_spaced_cons, List.mem_append, List.mem_append, not_or, not_or]
    refine ⟨fun h => ?_, ShortInt.notMem_text hm hd, ih⟩
    simp [(isBlank_of_mem_join_gapText gap.pieces).1 c h] at hb

/-- Joined numbers do not end with a blank. -/
theorem isBlank_of_getLast_text_append (n : ShortInt) (ns : List (Gap × ShortInt)) {c : Char}
    (h : c ∈ (n.text ++ joinContinuations (spaced ns)).getLast?) : isBlank c = false := by
  induction ns generalizing n with
  | nil =>
    rw [spaced, List.flatMap_nil, joinContinuations_nil, List.append_nil] at h
    exact ShortInt.isBlank_of_mem_text (List.mem_of_getLast? h)
  | cons pair ns ih =>
    obtain ⟨gap, m⟩ := pair
    rw [joinContinuations_spaced_cons, ← List.append_assoc,
      List.getLast?_append_of_ne_nil _ (List.append_ne_nil_of_left_ne_nil m.text_ne_nil _)] at h
    exact ih m h

/-- The words of joined numbers are the numbers. -/
theorem words_text_append (n : ShortInt) (ns : List (Gap × ShortInt)) :
    words (n.text ++ joinContinuations (spaced ns)) = n.text :: ns.map (·.2.text) := by
  induction ns generalizing n with
  | nil =>
    rw [spaced, List.flatMap_nil, joinContinuations_nil,
      words_append n.text_ne_nil (fun _ => ShortInt.isBlank_of_mem_text) rfl]
    rfl
  | cons pair ns ih =>
    obtain ⟨gap, m⟩ := pair
    obtain ⟨hblank, hne⟩ := isBlank_of_mem_join_gapText gap.pieces
    rw [joinContinuations_spaced_cons,
      words_append n.text_ne_nil fun _ => ShortInt.isBlank_of_mem_text,
      words_append_of_isBlank hblank, ih m, List.map_cons]
    rw [List.head?_append_of_ne_nil _ (hne gap.ne_nil)]
    cases hj : joinContinuations (gapText gap.pieces) with
    | nil => rfl
    | cons c r => exact hblank c (hj ▸ List.mem_cons_self)

/-- Numbers are read back. -/
theorem readInts_text (ns : List ShortInt) :
    readInts (ns.map ShortInt.text) = .ok (ns.map ShortInt.value) := by
  induction ns with
  | nil => rfl
  | cons n ns ih =>
    rw [readInts] at ih ⊢
    rw [List.map_cons, List.mapM_cons, n.readInt_text, ih]
    rfl

/-! ### Runs -/

/-- Equal steps go through the source lines one by one. -/
private theorem scanl_replicate_append (line step : Int) (n : Nat) (steps : List Int) :
    (List.replicate n step ++ steps).scanl (· + ·) line =
      line :: ((List.range n).map (fun (k : Nat) => line + (k + 1) * step) ++
        (steps.scanl (· + ·) (line + n * step)).tail) := by
  induction n generalizing line with
  | zero =>
    cases steps with
    | nil => simp
    | cons s steps => simp
  | succ n ih =>
    have hline : line + step + n * step = line + ((n + 1 : Nat) : Int) * step := by
      push_cast
      ring
    have hlines : (fun (k : Nat) => line + step + (k + 1) * step) =
        (fun (k : Nat) => line + (k + 1) * step) ∘ Nat.succ := by
      funext k
      simp only [Function.comp_apply, Nat.succ_eq_add_one]
      push_cast
      ring
    rw [List.replicate_succ, List.cons_append, List.scanl_cons, ih, hline, hlines,
      List.range_succ_eq_map, List.map_cons, List.map_map, List.cons_append]
    simp

/-- **Runs stand for their source lines.** -/
theorem runLines?_numbers (line : Int) (runs : List PrintedRun) :
    runLines? line ((runs.flatMap PrintedRun.numbers).map (·.2.value)) =
      some ((runs.flatMap PrintedRun.steps).scanl (· + ·) line).tail := by
  induction runs generalizing line with
  | nil => rfl
  | cons r runs ih =>
    have hcount : (r.count.value.toNat : Int) = r.count.value := Int.toNat_of_nonneg r.count_nonneg
    rw [List.flatMap_cons, List.flatMap_cons, PrintedRun.steps, scanl_replicate_append]
    simp only [PrintedRun.numbers, List.cons_append, List.nil_append, List.map_cons, runLines?, ih]
    rfl

/-- Source lines can be cut into runs whenever the steps between them can be written. -/
theorem exists_runs {first : Int} {lines : List Int}
    (h : (first :: lines).IsChain fun a b => (b - a).natAbs < Nat.pow 10 digitLimit) :
    ∃ runs : List PrintedRun,
      (runs.flatMap PrintedRun.steps).scanl (· + ·) first = first :: lines := by
  induction lines generalizing first with
  | nil => exact ⟨[], rfl⟩
  | cons line lines ih =>
    rw [List.isChain_cons_cons] at h
    obtain ⟨runs, hruns⟩ := ih h.2
    let space : Gap := ⟨[.blank ' ' rfl], List.cons_ne_nil _ _⟩
    let once : ShortInt := ⟨1, lt_pow_of_le (by decide)⟩
    refine ⟨⟨once, by decide, ⟨line - first, h.1⟩, space, space⟩ :: runs, ?_⟩
    have hstep : first + (line - first) = line := by omega
    have hone : List.replicate once.value.toNat (line - first) = [line - first] := rfl
    rw [List.flatMap_cons, PrintedRun.steps, hone, List.singleton_append, List.scanl_cons, hstep,
      hruns]

/-! ### Fields -/

/-- Whether the text between the braces of an entry gives two names, an offset and numbers. -/
inductive Gives (body : List Char) : List Char → List Char → Int → List Int → Prop
  | plain {output input numbers : List Char} {rest : List (List Char)} {values : List Int}
      (hf : (fields ':' body).map trim =
        "concordance".toList :: output :: input :: numbers :: rest)
      (hn : dropLead? "ofs".toList numbers = none) (hv : readInts (words numbers) = .ok values) :
      Gives body output input 0 values
  | shifted {output input field numbers : List Char} {rest : List (List Char)} {offset : Int}
      {values : List Int}
      (hf : (fields ':' body).map trim =
        "concordance".toList :: output :: input :: field :: numbers :: rest)
      (hl : (dropLead? "ofs".toList field).isSome = true) (ho : readOffset field = .ok offset)
      (hv : readInts (words numbers) = .ok values) :
      Gives body output input offset values

/-- What becomes of an entry is decided by its numbers. -/
theorem ofBody_of_gives {baseDir : Path} {body output input : List Char} {offset : Int}
    {values : List Int} (h : Gives body output input offset values) :
    ofBody baseDir body = (decodeLines values).map fun lines =>
      { outputFile := some (baseDir.child (String.ofList output))
        inputFile := some (baseDir.child (String.ofList input))
        lines, offset } := by
  have hread : ∀ {numbers : List Char}, readInts (words numbers) = .ok values →
      readLines numbers = decodeLines values := by
    intro numbers hv
    rw [readLines, hv]
    rfl
  rw [ofBody]
  cases h with
  | plain hf hn hv =>
    rw [hf]
    -- the keyword is compared with itself, whatever it is
    generalize "concordance".toList = keyword
    simp only [hn, hread hv, ne_eq, not_true_eq_false, if_false, Option.isSome_none,
      Bool.false_eq_true]
    cases decodeLines values <;> rfl
  | shifted hf hl ho hv =>
    rw [hf]
    generalize "concordance".toList = keyword
    simp only [hl, ho, hread hv, ne_eq, not_true_eq_false, if_false, if_true]
    cases decodeLines values <;> rfl

/-- An offset is read back. -/
private theorem readOffset_text (n : ShortInt) : readOffset ("ofs ".toList ++ n.text) =
    .ok n.value := by
  have hwords : words ("ofs ".toList ++ n.text) = ["ofs".toList, n.text] := by
    have hsplit : "ofs ".toList = "ofs".toList ++ [' '] := by decide
    have hn := words_append n.text_ne_nil (fun _ => ShortInt.isBlank_of_mem_text) (t := []) rfl
    rw [List.append_nil] at hn
    rw [hsplit, List.append_assoc, words_append (by decide) (by decide) rfl,
      words_append_of_isBlank (by decide), hn]
    rfl
  rw [readOffset, hwords]
  simp only [n.readInt_text]
  rfl

/-- The fields of an entry up to its numbers, with what is read as numbers behind them. -/
theorem gives_fieldsText (output input : EntryName) (offset : Option ShortInt)
    {text numbers : List Char} {values : List Int} (hcolon : ':' ∉ text)
    (htext : trim text = numbers) (hn : dropLead? "ofs".toList numbers = none)
    (hv : readInts (words numbers) = .ok values) :
    Gives ("concordance".toList ++ ':' :: (output.text ++ ':' :: (input.text ++ ':' ::
        offsetText offset)) ++ text) output.text input.text
      ((offset.map ShortInt.value).getD 0) values := by
  have hkeyword : ':' ∉ "concordance".toList := by decide
  have htrim : trim "concordance".toList = "concordance".toList := by decide +kernel
  have hfields : ∀ rest, (fields ':' ("concordance".toList ++ ':' :: (output.text ++ ':' ::
      (input.text ++ ':' :: rest)))).map trim =
        "concordance".toList :: output.text :: input.text :: (fields ':' rest).map trim := by
    intro rest
    generalize "concordance".toList = keyword at *
    simp only [fields_append_cons hkeyword, fields_append_cons output.colon_notMem,
      fields_append_cons input.colon_notMem, List.map_cons, htrim, output.trimmed, input.trimmed]
  have hbody : "concordance".toList ++ ':' :: (output.text ++ ':' :: (input.text ++ ':' ::
      offsetText offset)) ++ text = "concordance".toList ++ ':' :: (output.text ++ ':' ::
        (input.text ++ ':' :: (offsetText offset ++ text))) := by
    generalize "concordance".toList = keyword
    simp only [List.append_assoc, List.cons_append]
  have hnames := hfields (offsetText offset ++ text)
  rw [hbody]
  cases offset with
  | none =>
    have hf : (fields ':' (offsetText none ++ text)).map trim = [numbers] := by
      rw [offsetText, List.nil_append, fields_eq_singleton hcolon, List.map_singleton, htext]
    rw [hf] at hnames
    exact .plain hnames hn hv
  | some n =>
    have hoffset : ':' ∉ "ofs ".toList ++ n.text := by
      rw [List.mem_append, not_or]
      exact ⟨by decide, ShortInt.notMem_text (by decide) (by decide)⟩
    have hfield : trim ("ofs ".toList ++ n.text) = "ofs ".toList ++ n.text := by
      refine trim_eq_self_iff.mpr ⟨?_, fun c hc => ?_⟩
      · rintro c ⟨⟩
        decide
      · rw [List.getLast?_append_of_ne_nil _ n.text_ne_nil] at hc
        exact ShortInt.isBlank_of_mem_text (List.mem_of_getLast? hc)
    have hf : (fields ':' (offsetText (some n) ++ text)).map trim =
        ["ofs ".toList ++ n.text, numbers] := by
      rw [offsetText, List.append_assoc, List.singleton_append, fields_append_cons hoffset,
        fields_eq_singleton hcolon, List.map_cons, List.map_singleton, hfield, htext]
    rw [hf] at hnames
    exact .shifted hnames rfl (readOffset_text n) hv

/-! ### Entries -/

/-- The numbers of an entry where continuations are joined. -/
def PrintedEntry.joinedNumbers (e : PrintedEntry) : List Char :=
  e.first.text ++ joinContinuations (spaced (e.runs.flatMap PrintedRun.numbers))

/-- The text between the braces of an entry where continuations are joined. -/
def PrintedEntry.joinedBody (e : PrintedEntry) : List Char :=
  e.fieldsText ++ (joinContinuations (gapText e.opening) ++ e.joinedNumbers)

namespace PrintedEntry

variable (e : PrintedEntry)

/-- The definition as an equation; Lean would evaluate the keyword to state it. -/
private theorem fieldsText_eq : e.fieldsText = "concordance".toList ++ ':' :: (e.output.text ++
    ':' :: (e.input.text ++ ':' :: offsetText e.offset)) := rfl

private theorem notMem_fieldsText {c : Char} (hk : c ∉ "concordance".toList ∧ c ≠ ':')
    (hn : c ∉ e.output.text ∧ c ∉ e.input.text)
    (ho : c ∉ "ofs ".toList ∧ c ≠ '-' ∧ c.isDigit = false) : c ∉ e.fieldsText := by
  have hoffset : c ∉ offsetText e.offset := by
    cases e.offset with
    | none => exact List.not_mem_nil
    | some n =>
      simp only [offsetText, List.mem_append, List.mem_singleton, not_or]
      exact ⟨⟨ho.1, ShortInt.notMem_text ho.2.1 ho.2.2⟩, hk.2⟩
  simp only [fieldsText_eq, List.mem_append, List.mem_cons, not_or]
  exact ⟨hk.1, hk.2, hn.1, hk.2, hn.2, hk.2, hoffset⟩

private theorem notMem_joinedNumbers {c : Char} (hb : isBlank c = false) (hm : c ≠ '-')
    (hd : c.isDigit = false) : c ∉ e.joinedNumbers := by
  rw [joinedNumbers, List.mem_append, not_or]
  exact ⟨ShortInt.notMem_text hm hd, notMem_join_spaced hb hm hd _⟩

private theorem brace_notMem_joinedBody : '}' ∉ e.joinedBody := by
  rw [joinedBody, List.mem_append, List.mem_append, not_or, not_or]
  refine ⟨e.notMem_fieldsText (by decide) ⟨e.output.brace_notMem, e.input.brace_notMem⟩ (by decide),
    fun h => ?_, e.notMem_joinedNumbers (by decide) (by decide) (by decide)⟩
  exact absurd ((isBlank_of_mem_join_gapText e.opening).1 _ h) (by decide)

/-- The numbers are trimmed to what they are without the blanks in front of them. -/
private theorem trim_joinedNumbers :
    trim (joinContinuations (gapText e.opening) ++ e.joinedNumbers) = e.joinedNumbers := by
  refine trim_append_of_isBlank (isBlank_of_mem_join_gapText e.opening).1 ?_
  exact trim_eq_self_iff.mpr ⟨fun c => ShortInt.isBlank_of_head_text_append,
    fun c => isBlank_of_getLast_text_append e.first _⟩

/-- The numbers are read back. -/
private theorem readInts_joinedNumbers : readInts (words e.joinedNumbers) =
    .ok (e.first.value :: (e.runs.flatMap PrintedRun.numbers).map (·.2.value)) := by
  have hread := readInts_text (e.first :: (e.runs.flatMap PrintedRun.numbers).map (·.2))
  rw [List.map_cons, List.map_cons, List.map_map, List.map_map] at hread
  rw [joinedNumbers, words_text_append]
  exact hread

/-- They stand for the source lines. -/
private theorem decodeLines_numbers :
    decodeLines (e.first.value :: (e.runs.flatMap PrintedRun.numbers).map (·.2.value)) =
      .ok ((e.runs.flatMap PrintedRun.steps).scanl (· + ·) e.first.value) := by
  rw [decodeLines, runLines?_numbers]
  cases e.runs.flatMap PrintedRun.steps <;> simp

/-- **An entry is read back.** -/
theorem ofBody_joinedBody (baseDir : Path) :
    ofBody baseDir e.joinedBody = .ok (e.concordance baseDir) := by
  have hcolon : ':' ∉ joinContinuations (gapText e.opening) ++ e.joinedNumbers := by
    rw [List.mem_append, not_or]
    refine ⟨fun h => ?_, e.notMem_joinedNumbers (by decide) (by decide) (by decide)⟩
    exact absurd ((isBlank_of_mem_join_gapText e.opening).1 _ h) (by decide)
  have hofs : dropLead? "ofs".toList e.joinedNumbers = none := by
    refine dropLead?_eq_none ?_
    rintro ⟨r, hr⟩
    have hmem : 'o' ∈ e.joinedNumbers := hr ▸ List.mem_append_left r (by decide)
    exact e.notMem_joinedNumbers (by decide) (by decide) (by decide) hmem
  have hgives := gives_fieldsText e.output e.input e.offset hcolon e.trim_joinedNumbers hofs
    e.readInts_joinedNumbers
  rw [joinedBody, fieldsText_eq, ofBody_of_gives hgives, e.decodeLines_numbers]
  rfl

/-- Joining continuations in a file joins those of an entry. -/
private theorem joinContinuations_text_append (t : List Char) :
    joinContinuations (e.text ++ t) =
      entryLead ++ (e.joinedBody ++ '}' :: joinContinuations t) := by
  have hlead : '%' ∉ entryLead := by decide
  have hfields : '%' ∉ e.fieldsText := e.notMem_fieldsText (by decide)
    ⟨e.output.percent_notMem, e.input.percent_notMem⟩ (by decide)
  have hfirst : '%' ∉ e.first.text := ShortInt.notMem_text (by decide) (by decide)
  have hbrace : ∀ c ∈ ('}' :: t).head?, isBlank c = false := by
    rintro c ⟨⟩
    decide
  simp only [text, numbersText, joinedBody, joinedNumbers, List.append_assoc, List.singleton_append,
    joinContinuations_append_of_notMem hlead, joinContinuations_append_of_notMem hfields,
    joinContinuations_append_of_notMem hfirst, joinContinuations_append _ hbrace,
    joinContinuations_append (gapText e.opening) fun _ => ShortInt.isBlank_of_head_text_append,
    joinContinuations_cons (show '}' ≠ '%' by decide)]

end PrintedEntry

/-! ### Files -/

/-- What is skipped does not matter. -/
private theorem entryBodiesFrom_length_append (s t : List Char) :
    entryBodiesFrom s.length (s ++ t) = entryBodiesFrom 0 t := by
  induction s with
  | nil => rfl
  | cons c s ih => exact ih

/-- An entry is found where it starts. -/
private theorem entryBodiesFrom_entry {body : List Char} (h : '}' ∉ body) (t : List Char) :
    entryBodiesFrom 0 (entryLead ++ (body ++ '}' :: t)) = body :: entryBodiesFrom 0 t := by
  obtain ⟨c, lead, hlead⟩ : ∃ c lead, entryLead = c :: lead := ⟨_, _, rfl⟩
  have hskip : entryLead.length + body.length = (lead ++ (body ++ ['}'])).length := by
    rw [hlead]
    simp
    omega
  have hrest : lead ++ (body ++ '}' :: t) = (lead ++ (body ++ ['}'])) ++ t := by simp
  have hfind : (dropLead? entryLead (entryLead ++ (body ++ '}' :: t))).bind (cutFirst? '}') =
      some (body, t) := by
    rw [dropLead?_append, Option.bind_some, cutFirst?_append h]
  have hlist : entryLead ++ (body ++ '}' :: t) = c :: (lead ++ (body ++ '}' :: t)) := by
    rw [hlead, List.cons_append]
  rw [hlist] at hfind ⊢
  rw [entryBodiesFrom, hfind]
  simp only [hskip, hrest, entryBodiesFrom_length_append]

/-- The lead of an entry does not overlap with itself, so none starts in front of another one. -/
private theorem not_entryLead_prefix_append {c : Char} {s t : List Char}
    (hs : ¬ entryLead <+: c :: s)
    (ht : t = [] ∨ entryLead <+: t) : ¬ entryLead <+: c :: s ++ t := by
  rintro ⟨r, hr⟩
  obtain ⟨u, hu, -⟩ | ⟨u, hu, hr⟩ := List.append_eq_append_iff.mp hr
  · exact hs ⟨u, hu.symm⟩
  · cases u with
    | nil => exact hs ⟨[], by rw [hu, List.append_nil, List.append_nil]⟩
    | cons b u =>
      obtain rfl | ⟨v, rfl⟩ := ht
      · cases hr
      · obtain rfl : '\\' = b := (List.cons.inj hr).1
        have hmem : '\\' ∈ entryLead.tail := by
          rw [hu]
          simp
        exact absurd hmem (by decide)

/-- Nothing is found where no entry starts. -/
private theorem entryBodiesFrom_interlude {s t : List Char} (hs : ¬ entryLead <:+: s)
    (ht : t = [] ∨ entryLead <+: t) : entryBodiesFrom 0 (s ++ t) = entryBodiesFrom 0 t := by
  induction s with
  | nil => rfl
  | cons c s ih =>
    rw [List.infix_cons_iff, not_or] at hs
    rw [List.cons_append, entryBodiesFrom, ← List.cons_append,
      dropLead?_eq_none (not_entryLead_prefix_append hs.1 ht)]
    exact ih hs.2

/-- An entry cannot come about where continuations are joined. -/
private theorem Interlude.no_entry_join (i : Interlude) : ¬ entryLead <:+:
    joinContinuations i.text :=
  fun h => i.no_entry (infix_of_infix_join (by decide) (by decide) h)

/-- What is found in a file are the entries. -/
theorem entryBodiesFrom_join_append (i : Interlude) (entries : List (PrintedEntry × Interlude)) :
    entryBodiesFrom 0 (joinContinuations (i.text ++ entriesText entries)) =
      entries.map fun e => e.1.joinedBody := by
  induction entries generalizing i with
  | nil =>
    have h := entryBodiesFrom_interlude i.no_entry_join (.inl rfl)
    rw [List.append_nil] at h
    rw [entriesText, List.flatMap_nil, List.append_nil, h]
    rfl
  | cons pair entries ih =>
    obtain ⟨e, behind⟩ := pair
    have hhead : ∀ c ∈ (entriesText ((e, behind) :: entries)).head?, isBlank c = false := by
      rintro c ⟨⟩
      decide
    have hentry : joinContinuations (entriesText ((e, behind) :: entries)) =
        entryLead ++ (e.joinedBody ++ '}' ::
          joinContinuations (behind.text ++ entriesText entries)) := by
      rw [entriesText, List.flatMap_cons, List.append_assoc, e.joinContinuations_text_append,
        ← entriesText]
    rw [joinContinuations_append _ hhead, hentry,
      entryBodiesFrom_interlude i.no_entry_join (.inr (List.prefix_append _ _)),
      entryBodiesFrom_entry e.brace_notMem_joinedBody, ih, List.map_cons]

theorem mapM_ofBody_joinedBody (baseDir : Path) (entries : List (PrintedEntry × Interlude)) :
    (entries.map fun e => e.1.joinedBody).mapM (ofBody baseDir) =
      .ok (entries.map fun e => e.1.concordance baseDir) := by
  rw [List.mapM_map]
  induction entries with
  | nil => rfl
  | cons pair entries ih =>
    simp only [List.mapM_cons, Function.comp_apply, PrintedEntry.ofBody_joinedBody, ih]
    rfl

/-- **A printed concordance file is read back**: what is read are the concordances that its
entries mean, in order. -/
theorem readAll_text (baseDir : Path) (f : PrintedFile) :
    readAll baseDir f.text = .ok (f.entries.map fun e => e.1.concordance baseDir) := by
  rw [readAll, PrintedFile.text, entryBodiesFrom_join_append, mapM_ofBody_joinedBody]

example :
    let number (n : Int) (h : n.natAbs ≤ digitLimit) : ShortInt := ⟨n, lt_pow_of_le h⟩
    let space : Gap := ⟨[.blank ' ' rfl], by decide⟩
    let e : PrintedEntry :=
      { output := ⟨"a.tex".toList, by decide, by decide +kernel, by decide, by decide, by decide⟩
        input := ⟨"a.Rnw".toList, by decide, by decide +kernel, by decide, by decide, by decide⟩
        offset := some (number (-1) (by decide))
        opening := [.continuation [] (by decide)]
        first := number 1 (by decide)
        runs := [⟨number 2 (by decide), by decide, number 3 (by decide), space, space⟩] }
    e.text = "\\Sconcordance\x7bconcordance:a.tex:a.Rnw:ofs -1:%\n1 2 3\x7d".toList ∧
      (e.concordance (Path.ofString "/d")).lines = [1, 4, 7] := by
  decide +kernel

end Galley.Concordance
