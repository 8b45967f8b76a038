import Galley.Log.Tex
import Galley.Proofs.Result

/-!
# What the lines of a TeX log report

`Reports` tells which entry a line of each kind makes and where the number in it is read. A line
that makes an entry reports it (`reports_of_entryOfLine`), and every entry of a log is reported by
one of its lines (`exists_reports_of_mem`).
-/

namespace Galley.TexLog

open Text

/-- Whether a line reports an entry, given the open files and the lines behind it. -/
inductive Reports (files : FileStack) (behind : List (List Char)) : TexLine → Entry → Prop
  | fileError {file number message : List Char} {n : Nat} (hn : readDigits number = .ok n) :
      Reports files behind (.fileError file number message)
        ⟨.error, some (files.baseDir.resolveIn (String.ofList file)), n,
          String.ofList (cleanMessage message)⟩
  | error {message number : List Char} {n : Nat}
      (hp : (behind.take placeLookahead).findSome? TexLine.errorPlace? = some number)
      (hn : readDigits number = .ok n) :
      Reports files behind (.error message)
        ⟨.error, some files.current, n, String.ofList (cleanMessage message)⟩
  | warning {message text number : List Char} {n : Nat}
      (ht : TexLine.inputLine? (continued continuationLimit message behind) = some (text, number))
      (hn : readDigits number = .ok n) :
      Reports files behind (.warning message)
        ⟨.warning, some files.current, n, String.ofList (cleanMessage text)⟩
  | badBox {message number : List Char} {n : Nat} (hn : readDigits number = .ok n) :
      Reports files behind (.badBox message number)
        ⟨.badBox, some files.current, n, String.ofList (trim message)⟩

variable {files : FileStack}

private theorem exists_of_numbered {number : List Char} {f : Nat → Entry} {e : Entry}
    (h : (do
      let n ← readDigits number
      return some (f n) : Except NumeralError (Option Entry)) = .ok (some e)) :
    ∃ n, readDigits number = .ok n ∧ f n = e := by
  obtain ⟨n, hn, h⟩ := exists_of_bind_eq_ok h
  cases h
  exact ⟨n, hn, rfl⟩

/-- What is reported is in a file. -/
theorem Reports.file_isSome {line : TexLine} {behind : List (List Char)} {e : Entry}
    (h : Reports files behind line e) : e.file.isSome = true := by
  cases h <;> rfl

/-- A line that makes an entry reports it. -/
theorem reports_of_entryOfLine {line : TexLine} {behind : List (List Char)} {e : Entry}
    (h : entryOfLine files line behind = .ok (some e)) : Reports files behind line e := by
  cases line with
  | fileError file number message =>
    obtain ⟨n, hn, rfl⟩ := exists_of_numbered h
    exact .fileError hn
  | error message =>
    rw [entryOfLine] at h
    split at h
    · cases h
    · next number hp =>
      obtain ⟨n, hn, rfl⟩ := exists_of_numbered h
      exact .error hp hn
  | warning message =>
    rw [entryOfLine] at h
    split at h
    · cases h
    · next text number ht =>
      obtain ⟨n, hn, rfl⟩ := exists_of_numbered h
      exact .warning ht hn
  | badBox message number =>
    obtain ⟨n, hn, rfl⟩ := exists_of_numbered h
    exact .badBox hn
  | givenUp | plain => cases h

/-- Every entry of a log is reported by one of its lines. -/
theorem exists_reports_of_mem {ls : List (List Char)} {entries : List Entry}
    (h : entriesOfLines files ls = .ok entries) {e : Entry} (he : e ∈ entries) :
    ∃ files' front line behind, ls = front ++ line :: behind ∧
      Reports files' behind (TexLine.ofChars line) e := by
  induction ls generalizing files entries with
  | nil =>
    cases h
    cases he
  | cons line rest ih =>
    obtain ⟨entry, hentry, h⟩ := exists_of_bind_eq_ok h
    obtain ⟨more, hmore, h⟩ := exists_of_bind_eq_ok h
    cases h
    obtain he | he := List.mem_append.mp he
    · rw [Option.mem_toList.mp he] at hentry
      exact ⟨files, [], line, rest, rfl, reports_of_entryOfLine hentry⟩
    · obtain ⟨files', front, line', behind, rfl, hr⟩ := ih hmore he
      exact ⟨files', line :: front, line', behind, rfl, hr⟩

end Galley.TexLog
