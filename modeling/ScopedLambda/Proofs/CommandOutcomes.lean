import ScopedLambda.Command.Run
import ScopedLambda.Proofs.Arguments

/-!
# What the command leaves behind

A source is read once, after the arguments have been accepted, and what was read decides between
two ends: the whole program on standard output and exit code 0, or nothing on standard output, the
report of one failure at the end of standard error and exit code 1. The journal goes to standard
error alone.

* `Invocation.source`, `Invocation.print` — what is read, and how a program is printed.
* `Outcome` — what the command leaves behind, by what was read.

Principal results: `outcome_iff` — every input has one outcome, and the command has it;
`run_prints_all_or_nothing` — the whole command, for any arguments and any way of reading.
-/

set_option autoImplicit false

namespace ScopedLambda.Command

/-! ## Outcomes -/

/-- What an invocation reads. -/
def Invocation.source (invocation : Invocation) : Source := invocation.file.elim .stdin .file

/-- A program as an invocation prints it. -/
def Invocation.print (invocation : Invocation) (program : Program) : String :=
  if invocation.functional then program.toStructure else program.toLambda

/-- The lines of the journal that are severe enough. -/
def journalText (threshold : Option Level) (text : String) : String :=
  unlines ((upTo threshold (analyse text).journal).map (·.render))

/-- The report of a failure that has a cause. -/
def failureText (failure cause : String) : String :=
  "Error: " ++ failure ++ "\n\nCaused by:\n    " ++ cause ++ "\n"

/-- The report of why a text is no program. Two definitions of one name have no further cause. -/
def refusalText : SourceError → String
  | .lexical error => failureText ("lexical error: " ++ error.message) error.message
  | .grammar diagnostic => failureText ("syntax error: " ++ diagnostic.render) diagnostic.render
  | .duplicateDefinition name span =>
    "Error: " ++ ("duplicate definition for '" ++ name ++ "' at " ++ span.render) ++ "\n"

/-- What an invocation leaves behind for an input: the printed program, or the report of a
failure. -/
inductive Outcome (invocation : Invocation) (threshold : Option Level) :
    Except ReadFailure ByteArray → Report → Prop where
  | printed {text : String} {program : LinkedProgram} (h : parse text = .ok program) :
    Outcome invocation threshold (.ok text.toUTF8)
      ⟨0, invocation.print program.toProgram ++ "\n", journalText threshold text⟩
  | refused {text : String} {error : SourceError} (h : parse text = .error error) :
    Outcome invocation threshold (.ok text.toUTF8)
      ⟨1, "", journalText threshold text ++ refusalText error⟩
  | notText {bytes : ByteArray} (h : ∀ text : String, bytes ≠ text.toUTF8) :
    Outcome invocation threshold (.ok bytes)
      ⟨1, "", failureText ("failed to read " ++ invocation.source.label)
        ReadFailure.notText.message⟩
  | unread (failure : ReadFailure) :
    Outcome invocation threshold (.error failure)
      ⟨1, "", failureText ("failed to read " ++ invocation.source.label) failure.message⟩

/-! ## Texts -/

theorem unlines_append (first second : List String) :
    unlines (first ++ second) = unlines first ++ unlines second := by
  simp [unlines]

theorem unlines_failureLines_none (failure : String) :
    unlines (failureLines failure none) = "Error: " ++ failure ++ "\n" := by
  simp [unlines, failureLines]

theorem unlines_failureLines_some (failure cause : String) :
    unlines (failureLines failure (some cause)) = failureText failure cause := by
  have hbetween : "\n\nCaused by:\n    " =
      "\n" ++ ("\n" ++ ("Caused by:" ++ ("\n" ++ "    "))) := by decide
  simp [unlines, failureLines, failureText, hbetween, String.append_assoc, -String.reduceAppend]

theorem unlines_failureLines_eq_refusalText (error : SourceError) :
    unlines (failureLines error.message error.cause?) = refusalText error := by
  cases error with
  | lexical error => exact unlines_failureLines_some _ _
  | grammar diagnostic => exact unlines_failureLines_some _ _
  | duplicateDefinition name span => exact unlines_failureLines_none _

/-- Bytes are decoded to the text whose encoding they are. -/
theorem fromUTF8?_toUTF8 (text : String) : String.fromUTF8? text.toUTF8 = some text := by
  rw [String.fromUTF8?, String.toUTF8_eq_toByteArray, dif_pos text.isValidUTF8]
  rfl

/-- Bytes that encode no text are not decoded. -/
theorem fromUTF8?_eq_none {bytes : ByteArray} (h : ∀ text : String, bytes ≠ text.toUTF8) :
    String.fromUTF8? bytes = none := by
  rw [String.fromUTF8?]
  split
  · rename_i hvalid
    exact absurd rfl (h (String.fromUTF8 bytes hvalid))
  · rfl

/-! ## The outcome of an input -/

section Outcome

variable {invocation : Invocation} {threshold : Option Level}

theorem convertBytes_toUTF8 (source : Source) (text : String) :
    convertBytes invocation threshold source (.ok text.toUTF8) =
      convert invocation.functional threshold text := by
  simp only [convertBytes, bind, Except.bind, fromUTF8?_toUTF8]
  rfl

theorem convertBytes_eq_of_notText {source : Source} {bytes : ByteArray}
    (h : ∀ text : String, bytes ≠ text.toUTF8) :
    convertBytes invocation threshold source (.ok bytes) =
      ⟨1, "", failureText ("failed to read " ++ source.label) ReadFailure.notText.message⟩ := by
  simp only [convertBytes, bind, Except.bind, fromUTF8?_eq_none h, ← unlines_failureLines_some]
  rfl

theorem convertBytes_error (source : Source) (failure : ReadFailure) :
    convertBytes invocation threshold source (.error failure) =
      ⟨1, "", failureText ("failed to read " ++ source.label) failure.message⟩ := by
  rw [← unlines_failureLines_some]
  rfl

theorem convert_eq_of_ok {text : String} {program : LinkedProgram} (h : parse text = .ok program) :
    convert invocation.functional threshold text =
      ⟨0, invocation.print program.toProgram ++ "\n", journalText threshold text⟩ := by
  have houtcome : (analyse text).outcome = .ok program := h
  simp [convert, houtcome, unlines, Invocation.print, journalText]

theorem convert_eq_of_error {text : String} {error : SourceError} (h : parse text = .error error) :
    convert invocation.functional threshold text =
      ⟨1, "", journalText threshold text ++ refusalText error⟩ := by
  have houtcome : (analyse text).outcome = .error error := h
  simp [convert, houtcome, unlines_append, journalText, unlines_failureLines_eq_refusalText]

/-- **The command has the outcome of its input, and there is no other.** -/
theorem outcome_iff {input : Except ReadFailure ByteArray} {report : Report} :
    Outcome invocation threshold input report ↔
      report = convertBytes invocation threshold invocation.source input := by
  constructor
  · intro h
    cases h with
    | printed h => rw [convertBytes_toUTF8, convert_eq_of_ok h]
    | refused h => rw [convertBytes_toUTF8, convert_eq_of_error h]
    | notText h => rw [convertBytes_eq_of_notText h]
    | unread failure => rw [convertBytes_error]
  · rintro rfl
    cases input with
    | error failure =>
      rw [convertBytes_error]
      exact .unread failure
    | ok bytes =>
      by_cases htext : ∃ text : String, bytes = text.toUTF8
      · obtain ⟨text, rfl⟩ := htext
        rw [convertBytes_toUTF8]
        cases h : parse text with
        | ok program =>
          rw [convert_eq_of_ok h]
          exact .printed h
        | error error =>
          rw [convert_eq_of_error h]
          exact .refused h
      · have hnone := not_exists.1 htext
        rw [convertBytes_eq_of_notText hnone]
        exact .notText hnone

/-- An invocation succeeds exactly if its input is the encoding of a program. -/
theorem exitCode_convertBytes_eq_zero_iff {input : Except ReadFailure ByteArray} :
    (convertBytes invocation threshold invocation.source input).exitCode = 0 ↔
      ∃ text program, input = .ok text.toUTF8 ∧ parse text = .ok program := by
  constructor
  · intro hcode
    have h := outcome_iff.2 (Eq.refl (convertBytes invocation threshold invocation.source input))
    generalize convertBytes invocation threshold invocation.source input = report at h hcode
    cases h with
    | @printed text program h => exact ⟨text, program, rfl, h⟩
    | refused | notText | unread => cases hcode
  · rintro ⟨text, program, rfl, h⟩
    rw [convertBytes_toUTF8, convert_eq_of_ok h]

/-- The threshold of the journal changes standard error alone. -/
theorem convertBytes_threshold (input : Except ReadFailure ByteArray) (other : Option Level) :
    (convertBytes invocation other invocation.source input).exitCode =
        (convertBytes invocation threshold invocation.source input).exitCode ∧
      (convertBytes invocation other invocation.source input).stdout =
        (convertBytes invocation threshold invocation.source input).stdout := by
  have h := outcome_iff.2 (Eq.refl (convertBytes invocation threshold invocation.source input))
  generalize convertBytes invocation threshold invocation.source input = report at h ⊢
  cases h with
  | printed h => rw [convertBytes_toUTF8, convert_eq_of_ok h]; exact ⟨rfl, rfl⟩
  | refused h => rw [convertBytes_toUTF8, convert_eq_of_error h]; exact ⟨rfl, rfl⟩
  | notText h => rw [convertBytes_eq_of_notText h]; exact ⟨rfl, rfl⟩
  | unread failure => rw [convertBytes_error]; exact ⟨rfl, rfl⟩

end Outcome

/-! ## The command -/

/-- **The command prints a whole result or none.** Its arguments decide one thing. If they are one
flag for structure text at most and one file with a name at most, in any order, the source is read
once and the rest depends on the invocation, the input and the setting for the journal alone: the
command succeeds exactly if the input is the encoding of a program, and then prints all of it; else
it prints nothing but the report of the failure, behind the journal. The journal changes neither the
exit code nor the standard output. Otherwise the first argument that has a verdict decides, and
nothing is read. -/
theorem run_prints_all_or_nothing {m : Type → Type} [Monad m]
    (read : Source → m (Except ReadFailure ByteArray)) (arguments : List String) :
    (∃! decision, Decides (items arguments) decision) ∧
    (∀ invocation, (items arguments).Perm invocation.items → invocation.file ≠ some "" →
      ∀ setting, run read setting arguments = do
        return convertBytes invocation (thresholdOf setting) invocation.source
          (← read invocation.source)) ∧
    (∀ invocation threshold input,
      (∀ report, Outcome invocation threshold input report ↔
        report = convertBytes invocation threshold invocation.source input) ∧
      ((convertBytes invocation threshold invocation.source input).exitCode = 0 ↔
        ∃ text program, input = .ok text.toUTF8 ∧ parse text = .ok program) ∧
      ∀ other,
        (convertBytes invocation other invocation.source input).exitCode =
            (convertBytes invocation threshold invocation.source input).exitCode ∧
          (convertBytes invocation other invocation.source input).stdout =
            (convertBytes invocation threshold invocation.source input).stdout) ∧
    (Decides (items arguments) .showHelp →
      ∀ setting, run read setting arguments = pure ⟨0, helpText, ""⟩) ∧
    (Decides (items arguments) .showVersion →
      ∀ setting, run read setting arguments = pure ⟨0, versionText, ""⟩) ∧
    ∀ error, Decides (items arguments) (.refuse error) →
      ∀ setting, run read setting arguments = pure ⟨2, "", "error: " ++ error.message ++ "\n"⟩ := by
  refine ⟨?_, ?_, ?_, ?_, ?_, ?_⟩
  · exact ⟨decideArguments arguments, decideArguments_eq_iff.1 rfl,
      fun decision h => (decideArguments_eq_iff.2 h).symm⟩
  · intro invocation hitems hfile setting
    rw [run, decideArguments_eq_iff.2 (.accepted hitems hfile)]
    rfl
  · exact fun invocation threshold input => ⟨fun report => outcome_iff,
      exitCode_convertBytes_eq_zero_iff, convertBytes_threshold input⟩
  · intro h setting
    rw [run, decideArguments_eq_iff.2 h]
  · intro h setting
    rw [run, decideArguments_eq_iff.2 h]
  · intro error h setting
    rw [run, decideArguments_eq_iff.2 h]
    simp [unlines]

/-- Two orders of the same arguments read one file and print it in the same way. A flag for help
comes too late behind one that is not known. -/
theorem run_prints_all_or_nothing_of_orders :
    ∃ read : Source → Id (Except ReadFailure ByteArray),
      run read (some "trace") ["-f", "p"] = run read (some "trace") ["p", "--functional"] ∧
      (run read none ["-f", "p"]).exitCode = 0 ∧
      (run read none ["-f", "p"]).stdout = "Function(Name(x), Name(x))\n" ∧
      run read none ["-f", "-xh"] = ⟨2, "", "error: unexpected argument '-x' found\n"⟩ := by
  let read (source : Source) : Id (Except ReadFailure ByteArray) :=
    if source = .file "p" then .ok "λx.x".toUTF8 else .error .notFound
  have hfirst := (run_prints_all_or_nothing read ["-f", "p"]).2.1 ⟨true, some "p"⟩
    (.refl _) (by decide)
  have hsecond := (run_prints_all_or_nothing read ["p", "--functional"]).2.1 ⟨true, some "p"⟩
    (.swap _ _ _) (by decide)
  obtain ⟨_, _, houtcomes, _, _, hrefused⟩ := run_prints_all_or_nothing read ["-f", "-xh"]
  obtain ⟨hreport, hcode, _⟩ := houtcomes ⟨true, some "p"⟩ (thresholdOf none) (.ok "λx.x".toUTF8)
  have htext : (parse "λx.x").toOption.map (·.toStructure) = some "Function(Name(x), Name(x))" := by
    decide +kernel
  obtain ⟨program, hparse, hprinted⟩ := exists_ok_of_toOption htext
  have hflag : [Item.flag .functional].Perm (Invocation.items ⟨true, none⟩) := .refl _
  have hundecided : Undecided [.flag .functional] := undecided_of_perm hflag (by decide)
  have hunknown : Decides (items ["-f", "-xh"]) (.refuse (.unexpectedArgument "-x")) :=
    .item ⟨[.flag .help], rfl⟩ hundecided rfl
  refine ⟨read, (hfirst _).trans (hsecond _).symm, ?_, ?_, ?_⟩
  · rw [hfirst none]
    exact hcode.2 ⟨"λx.x", program, rfl, hparse⟩
  · rw [hfirst none]
    show (convertBytes _ _ _ (.ok "λx.x".toUTF8)).stdout = _
    rw [← (hreport _).1 (.printed hparse)]
    exact congrArg (· ++ "\n") hprinted
  · rw [hrefused _ hunknown none]
    rfl

end ScopedLambda.Command
