import ScopedLambda.Analysis
import ScopedLambda.Command.Arguments
import ScopedLambda.Command.Folder
import ScopedLambda.LambdaText
import ScopedLambda.StructureText

/-!
# The command

The command reads a program, links it and writes it back. Its result goes to standard output and
everything else — the journal and the report of a failure — to standard error.

* `Report` — the exit code and the two texts.
* `convert` — what becomes of the text of a program.
* `run` — the whole command. How a source is read is left to the caller, and a source is read only
  once the arguments have been accepted.
-/

set_option autoImplicit false

namespace ScopedLambda.Command

/-- What the command leaves behind. -/
structure Report where
  exitCode : Nat
  stdout : String
  stderr : String
deriving DecidableEq

/-- Where the text of a program comes from. -/
inductive Source where
  | stdin
  | file (path : String)
deriving DecidableEq

/-- What a message calls a source. -/
def Source.label : Source → String
  | stdin => "stdin"
  | file path => path

/-- Lines, each with its end. -/
def unlines (lines : List String) : String := String.join (lines.map (· ++ "\n"))

/-- The lines that report a failure and, if there is one, its cause. -/
def failureLines (failure : String) (cause : Option String) : List String :=
  ("Error: " ++ failure) :: cause.elim [] (["", "Caused by:", "    " ++ ·])

/-- The least severe level that is reported unless another is asked for. -/
def defaultThreshold : Option Level := some .warn

/-- The threshold that a setting asks for. Blanks around the level do not count; a setting that is
no level lets nothing pass. -/
def thresholdOf (setting : Option String) : Option Level :=
  match setting with
  | none => defaultThreshold
  | some name =>
    let trimmed := ((name.toList.dropWhile Text.isBlank).reverse.dropWhile Text.isBlank).reverse
    (threshold? (String.ofList trimmed)).join

/-- What the command answers to `--help`. -/
def helpText : String := unlines [
  "Parse a lambda program, resolve its names and print it back",
  "",
  "Usage: lambda-front [OPTIONS] [FILE]",
  "",
  "Arguments:",
  "  [FILE]  Source file to read; standard input when omitted",
  "",
  "Options:",
  "  -f, --functional  Print the node structure instead of lambda notation",
  "  -h, --help        Print help",
  "  -V, --version     Print version"]

/-- What the command answers to `--version`. -/
def versionText : String := unlines ["lambda-front 0.1.0"]

/-- What becomes of the text of a program: its lambda text or structure text, or the report of why
it is no program; the journal goes before. -/
def convert (functional : Bool) (threshold : Option Level) (source : String) : Report :=
  let analysis := analyse source
  let journal := (upTo threshold analysis.journal).map (·.render)
  match analysis.outcome with
  | .ok program =>
    ⟨0, unlines [if functional then program.toStructure else program.toLambda], unlines journal⟩
  | .error error => ⟨1, "", unlines (journal ++ failureLines error.message error.cause?)⟩

/-- What becomes of the bytes of a source, or of the failure to read them. -/
def convertBytes (invocation : Invocation) (threshold : Option Level) (source : Source)
    (bytes : Except ReadFailure ByteArray) : Report :=
  let text : Except ReadFailure String := do
    match String.fromUTF8? (← bytes) with
    | some text => return text
    | none => throw .notText
  match text with
  | .ok text => convert invocation.functional threshold text
  | .error failure =>
    ⟨1, "", unlines (failureLines ("failed to read " ++ source.label) (some failure.message))⟩

/-- The whole command, under a setting for the journal; `read` is how a source is read. -/
def run {m : Type → Type} [Monad m] (read : Source → m (Except ReadFailure ByteArray))
    (setting : Option String) (arguments : List String) : m Report :=
  match decideArguments arguments with
  | .refuse error => return ⟨2, "", unlines ["error: " ++ error.message]⟩
  | .showHelp => return ⟨0, helpText, ""⟩
  | .showVersion => return ⟨0, versionText, ""⟩
  | .convert invocation => do
    let source := invocation.file.elim .stdin .file
    return convertBytes invocation (thresholdOf setting) source (← read source)

end ScopedLambda.Command
