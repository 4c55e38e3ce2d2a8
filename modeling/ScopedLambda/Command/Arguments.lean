import ScopedLambda.Outcome
import ScopedLambda.Text.Visible

/-!
# Command-line arguments

    lambda-front [OPTIONS] [FILE]

Arguments are read from left to right. A word that begins with `-` holds flags: `--name`, or single
letters as in `-fh`. Every other word is the file, of which there is at most one; so is a lone `-`,
and so is every word after `--`. The first argument that cannot be accepted decides, and so does the
first flag that asks for help or the version.

The name of the file is looked at only when the next flag is recognised or the arguments end: an
empty name is refused then.

* `Flag` — the three flags.
* `Invocation` — what has been asked for.
* `UsageError` — why arguments are refused, and `UsageError.message`, in words. What a message
  quotes of an argument is what a terminal shows of it.
* `Decision` — what the arguments amount to.
* `decideArguments` — the decision on a list of arguments.
-/

set_option autoImplicit false

namespace ScopedLambda.Command

/-- The flags. -/
inductive Flag where
  | functional
  | help
  | version
deriving DecidableEq

namespace Flag

/-- The long name of a flag, without the dashes. -/
def long : Flag → String
  | functional => "functional"
  | help => "help"
  | version => "version"

/-- The letter of a flag. -/
def letter : Flag → Char
  | functional => 'f'
  | help => 'h'
  | version => 'V'

/-- All flags. -/
def all : List Flag := [functional, help, version]

/-- The flag of a long name. -/
def ofLong? (name : String) : Option Flag := all.find? (·.long == name)

/-- The flag of a letter. -/
def ofLetter? (c : Char) : Option Flag := all.find? (·.letter == c)

end Flag

/-- What has been asked for: structure text in place of lambda text, and a file in place of standard
input. -/
structure Invocation where
  functional : Bool := false
  file : Option String := none
deriving DecidableEq

/-- Why arguments are refused. -/
inductive UsageError where
  | unexpectedArgument (argument : String)
  | unexpectedValue (value : String) (flag : Flag)
  | repeatedFlag (flag : Flag)
  | emptyFileName
deriving DecidableEq

/-- The refusal in words. -/
def UsageError.message : UsageError → String
  | unexpectedArgument argument => "unexpected argument '" ++ Text.visible argument ++ "' found"
  | unexpectedValue value flag =>
    "unexpected value '" ++ Text.visible value ++ "' for '--" ++ flag.long ++
      "' found; no more were expected"
  | repeatedFlag flag => "the argument '--" ++ flag.long ++ "' cannot be used multiple times"
  | emptyFileName => "a value is required for '[FILE]' but none was supplied"

/-- What arguments amount to. -/
inductive Decision where
  | refuse (error : UsageError)
  | showHelp
  | showVersion
  | convert (invocation : Invocation)
deriving DecidableEq

namespace Invocation

/-- The invocation, unless its file has an empty name. -/
def checkFile (asked : Invocation) : Except Decision Invocation :=
  if asked.file = some "" then .error (.refuse .emptyFileName) else .ok asked

/-- The invocation with a flag. -/
def addFlag (asked : Invocation) (flag : Flag) : Except Decision Invocation := do
  let asked ← asked.checkFile
  match flag with
  | .help => throw .showHelp
  | .version => throw .showVersion
  | .functional =>
    if asked.functional then throw (.refuse (.repeatedFlag flag))
    return { asked with functional := true }

/-- The invocation with the flags of some letters. -/
def addLetters (asked : Invocation) : List Char → Except Decision Invocation
  | [] => .ok asked
  | c :: rest =>
    match Flag.ofLetter? c with
    | none => .error (.refuse (.unexpectedArgument (String.ofList ['-', c])))
    | some flag => do (← asked.addFlag flag).addLetters rest

/-- The invocation with the flag of a long name, which takes no value. -/
def addLong (asked : Invocation) (word : List Char) : Except Decision Invocation :=
  let name := String.ofList (word.takeWhile (· != '='))
  match Flag.ofLong? name, word.dropWhile (· != '=') with
  | none, _ => .error (.refuse (.unexpectedArgument ("--" ++ name)))
  | some flag, [] => asked.addFlag flag
  | some flag, _ :: value => .error (.refuse (.unexpectedValue (String.ofList value) flag))

/-- The invocation with a file, of which there is at most one. -/
def addFile (asked : Invocation) (name : String) : Except Decision Invocation :=
  if asked.file.isSome then .error (.refuse (.unexpectedArgument name))
  else .ok { asked with file := some name }

/-- The invocation with everything that some words ask for. -/
def addWords (asked : Invocation) : List String → Except Decision Invocation
  | [] => .ok asked
  | word :: rest =>
    match word.toList with
    | ['-', '-'] => rest.foldlM addFile asked
    | '-' :: '-' :: name => do (← asked.addLong name).addWords rest
    | '-' :: c :: letters => do (← asked.addLetters (c :: letters)).addWords rest
    | _ => do (← asked.addFile word).addWords rest

end Invocation

/-- The decision on a list of arguments. -/
def decideArguments (arguments : List String) : Decision :=
  match (({} : Invocation).addWords arguments).bind (·.checkFile) with
  | .ok asked => .convert asked
  | .error decision => decision

end ScopedLambda.Command
