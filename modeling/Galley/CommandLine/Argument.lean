import Galley.Text.Trim

/-!
# Arguments of a command line

An argument that starts with a dash is an option, unless it is a dash alone. A **long** option
starts with two dashes, and its value is the next argument or stands behind an equals sign. The
**short** options have one letter each and may share a dash; the value of one is the rest of the
argument, or the next argument if nothing is left. Two dashes alone end the options.
-/

namespace Galley

open Text

/-- An option that a command knows, with its spelling. -/
structure OptionForm where
  spelling : String
  takesValue : Bool := false
  deriving DecidableEq, Repr

/-- A part of a command line. -/
inductive Argument where
  | option (spelling : String) (value : Option String)
  | plain (text : String)
  deriving DecidableEq, Repr

/-- Why a command line is not understood. -/
inductive UsageError where
  | unknownOption (spelling : String)
  | unknownCommand (name : String)
  | missingValue (spelling : String)
  | unwantedValue (spelling : String)
  | missingArgument
  | extraArgument (text : String)
  deriving DecidableEq, Repr

/-- The text of a usage error. -/
def UsageError.message : UsageError → String
  | .unknownOption spelling => "No such option: " ++ spelling
  | .unknownCommand name => "No such command '" ++ name ++ "'."
  | .missingValue spelling => "Option '" ++ spelling ++ "' requires an argument."
  | .unwantedValue spelling => "Option '" ++ spelling ++ "' does not take a value."
  | .missingArgument => "Missing argument 'TARGET'."
  | .extraArgument text => "Got unexpected extra argument (" ++ text ++ ")"

namespace Argument

/-- What one word of a command line tells. -/
inductive Word where
  /-- The options in it are complete. -/
  | options (found : List Argument)
  /-- The value of its last option is still to come. -/
  | awaiting (found : List Argument) (spelling : String)
  | argument
  deriving DecidableEq, Repr

/-- The options that share a dash. -/
def cluster (forms : List OptionForm) : List Char → Except UsageError Word
  | [] => .ok (.options [])
  | c :: rest =>
    let spelling := String.ofList ['-', c]
    match forms.find? (·.spelling == spelling) with
    | none => .error (.unknownOption spelling)
    | some form =>
      if form.takesValue then
        if rest = [] then .ok (.awaiting [] spelling)
        else .ok (.options [.option spelling (some (String.ofList rest))])
      else do
        match ← cluster forms rest with
        | .options found => return .options (.option spelling none :: found)
        | .awaiting found last => return .awaiting (.option spelling none :: found) last
        | .argument => return .argument

/-- A long option, with the value behind its equals sign. -/
def long (forms : List OptionForm) (word : List Char) : Except UsageError Word :=
  let (name, value) :=
    match cutFirst? '=' word with
    | some (name, value) => (name, some (String.ofList value))
    | none => (word, none)
  let spelling := String.ofList name
  match forms.find? (·.spelling == spelling), value with
  | none, _ => .error (.unknownOption spelling)
  | some form, none => .ok (if form.takesValue then .awaiting [] spelling
      else .options [.option spelling none])
  | some form, some value =>
    if form.takesValue then .ok (.options [.option spelling (some value)])
    else .error (.unwantedValue spelling)

/-- Reads one word. -/
def word (forms : List OptionForm) (text : String) : Except UsageError Word :=
  match text.toList with
  | '-' :: '-' :: rest => long forms ('-' :: '-' :: rest)
  | '-' :: c :: rest => cluster forms (c :: rest)
  | _ => .ok .argument

/-- Reads the words behind the name of a command. -/
def readAll (forms : List OptionForm) : List String → Except UsageError (List Argument)
  | [] => .ok []
  | "--" :: rest => .ok (rest.map .plain)
  | text :: rest => do
    match ← word forms text with
    | .argument => return .plain text :: (← readAll forms rest)
    | .options found => return found ++ (← readAll forms rest)
    | .awaiting found spelling =>
      match rest with
      | [] => throw (.missingValue spelling)
      | value :: rest => return found ++ .option spelling (some value) :: (← readAll forms rest)

/-- The options in front of the name of a command, and the words from there on. -/
def readFront (forms : List OptionForm) : List String →
    Except UsageError (List Argument × List String)
  | [] => .ok ([], [])
  | "--" :: rest => .ok ([], rest)
  | text :: rest => do
    match ← word forms text with
    | .argument => return ([], text :: rest)
    | .options found =>
      let (more, words) ← readFront forms rest
      return (found ++ more, words)
    | .awaiting found spelling =>
      match rest with
      | [] => throw (.missingValue spelling)
      | value :: rest =>
        let (more, words) ← readFront forms rest
        return (found ++ .option spelling (some value) :: more, words)

/-- The plain text of an argument. -/
def plain? : Argument → Option String
  | .plain text => some text
  | .option _ _ => none

/-- Whether an option is among the arguments. -/
def has (arguments : List Argument) (spellings : List String) : Bool :=
  arguments.any fun
    | .option s _ => spellings.contains s
    | .plain _ => false

/-- The value of an option, the last one if it is given several times. -/
def lastValue? (arguments : List Argument) (spellings : List String) : Option String :=
  (arguments.filterMap fun
    | .option s value => if spellings.contains s then value else none
    | .plain _ => none).getLast?

/-- Whether the last of two opposite options is the first one, if any of them is given. -/
def lastOf? (arguments : List Argument) (yes no : String) : Option Bool :=
  (arguments.filterMap fun
    | .option s _ => if s == yes then some true else if s == no then some false else none
    | .plain _ => none).getLast?

end Argument

end Galley
