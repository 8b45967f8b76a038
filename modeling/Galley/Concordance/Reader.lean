import Galley.Concordance.Basic
import Galley.Text.Numeral

/-!
# Reading concordances

A concordance file holds entries of the form

    \Sconcordance{concordance:notes.tex:notes.Rnw:%
    1 12 1 1 2 1 0 3 1}

A percent sign with the blanks and the last line break behind it is a continuation and counts as
one space. An optional field `ofs N` before the numbers gives the offset. The numbers are a
run-length encoding: the first is the source line of the first covered line, and each pair
`count step` behind it stands for `count` lines, each `step` further on in the source.
-/

namespace Galley

open Text

/-- Why an entry of a concordance file cannot be used. -/
inductive ConcordanceError where
  /-- The entry lacks fields, or its first field is not the word `concordance`. -/
  | malformed (body : String)
  /-- The entry has an offset and no numbers. -/
  | offsetOnly (body : String)
  /-- The offset field has no number in it. -/
  | offsetMissing
  /-- A count stands without its step. -/
  | unpaired (values : List Int)
  | numeral (e : NumeralError)
  deriving DecidableEq, Repr

/-- The text of a concordance error; of a body the first 80 characters are shown. -/
def ConcordanceError.message : ConcordanceError → String
  | .malformed body =>
    "Malformed concordance entry: " ++ String.ofList (body.toList.take 80)
  | .offsetOnly body =>
    "Concordance entry has offset but no lines: " ++ String.ofList (body.toList.take 80)
  | .offsetMissing => "list index out of range"
  | .unpaired values =>
    "Unpaired run-length value in concordance: [" ++
      ", ".intercalate (values.map toString) ++ "]"
  | .numeral e => e.message

namespace Concordance

/-! ### Continuations -/

/-- What follows the last line feed among the blanks at the start of a text. -/
def behindLineFeed? : List Char → Option (List Char)
  | [] => none
  | c :: r =>
    if isBlank c then (behindLineFeed? r).or (if c = '\n' then some r else none) else none

theorem length_le_of_behindLineFeed? {s t : List Char} (h : behindLineFeed? s = some t) :
    t.length ≤ s.length := by
  induction s with
  | nil => simp [behindLineFeed?] at h
  | cons c r ih =>
    simp only [behindLineFeed?] at h
    split at h
    · cases hr : behindLineFeed? r with
      | some u =>
        rw [hr, Option.some_or, Option.some_inj] at h
        subst h
        exact Nat.le_succ_of_le (ih hr)
      | none =>
        rw [hr, Option.none_or] at h
        split at h
        · cases h
          exact Nat.le_succ _
        · cases h
    · cases h

/-- The text with every continuation as one space. -/
def joinContinuations : List Char → List Char
  | [] => []
  | c :: r =>
    if c = '%' then
      match h : behindLineFeed? r with
      | some rest =>
        have : rest.length < r.length + 1 := Nat.lt_succ_of_le (length_le_of_behindLineFeed? h)
        ' ' :: joinContinuations rest
      | none => c :: joinContinuations r
    else c :: joinContinuations r
termination_by s => s.length

/-! ### Entries -/

/-- What opens an entry. -/
def entryLead : List Char := "\\Sconcordance\x7b".toList

/-- The text between braces of every entry, in order. An entry ends at the first closing brace;
behind one that is never closed there is no other. -/
def entryBodiesFrom (skip : Nat) : List Char → List (List Char)
  | [] => []
  | c :: r =>
    match skip with
    | k + 1 => entryBodiesFrom k r
    | 0 =>
      match (dropLead? entryLead (c :: r)).bind (cutFirst? '}') with
      | some (body, _) => body :: entryBodiesFrom (entryLead.length + body.length) r
      | none => entryBodiesFrom 0 r

/-- Reads numbers, the first bad one being the error. -/
def readInts (tokens : List (List Char)) : Except ConcordanceError (List Int) :=
  tokens.mapM fun t => (readInt t).mapError .numeral

/-- The lines behind `line` that the pairs of counts and steps stand for, or nothing if a count
stands alone. -/
def runLines? (line : Int) : List Int → Option (List Int)
  | [] => some []
  | [_] => none
  | count :: step :: rest =>
    let run := (List.range count.toNat).map fun (k : Nat) => line + (k + 1) * step
    (runLines? (line + count.toNat * step) rest).map (run ++ ·)

/-- The source lines that the numbers of an entry stand for. -/
def decodeLines : List Int → Except ConcordanceError (List Int)
  | [] => .ok []
  | first :: pairs =>
    match runLines? first pairs with
    | some rest => .ok (first :: rest)
    | none => .error (.unpaired (first :: pairs))

/-- Reads the numbers of an entry. -/
def readLines (numbers : List Char) : Except ConcordanceError (List Int) := do
  decodeLines (← readInts (words numbers))

/-- Reads the offset field, whose second word is the offset. -/
def readOffset (field : List Char) : Except ConcordanceError Int :=
  match words field with
  | _ :: n :: _ => (readInt n).mapError .numeral
  | _ => .error .offsetMissing

/-- Reads one entry from the text between its braces; names are read from `baseDir`. -/
def ofBody (baseDir : Path) (body : List Char) : Except ConcordanceError Concordance :=
  match (fields ':' body).map trim with
  | keyword :: output :: input :: field :: rest => do
    if keyword ≠ "concordance".toList then throw (.malformed (String.ofList body))
    let entry (lines : List Int) (offset : Int) : Concordance :=
      { outputFile := some (baseDir.child (String.ofList output))
        inputFile := some (baseDir.child (String.ofList input))
        lines, offset }
    if (dropLead? "ofs".toList field).isSome then
      -- a bad offset is reported even if the numbers are missing
      let offset ← readOffset field
      match rest with
      | [] => throw (.offsetOnly (String.ofList body))
      | numbers :: _ => return entry (← readLines numbers) offset
    else return entry (← readLines field) 0
  | _ => .error (.malformed (String.ofList body))

/-- Reads every entry of a concordance file. -/
def readAll (baseDir : Path) (text : List Char) : Except ConcordanceError (List Concordance) :=
  (entryBodiesFrom 0 (joinContinuations text)).mapM (ofBody baseDir)

end Concordance

end Galley
