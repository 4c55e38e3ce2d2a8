import ScopedLambda.Journal
import ScopedLambda.LinkedProgram
import ScopedLambda.Outcome
import ScopedLambda.Program.Read
import ScopedLambda.SourceError

/-!
# From a text to a linked program

A text is split into tokens, the tokens are read as a program, and the uses in it are linked. Each
stage starts only when the one before it has succeeded, and enters what it did in the journal.

* `Analysis` — a linked program or the reason why there is none, and the journal.
* `Linking.outcome` — what a walk over a program amounts to.
* `Cursor.analyse` — the program that the tokens from a cursor on make, and where the reading ended.
* `analyse` — the analysis of a text.
* `parse` — its outcome alone.
* `joinLines` — a text given line by line.
-/

set_option autoImplicit false

namespace ScopedLambda

/-- What came of a text, and what was done to find out. -/
structure Analysis where
  journal : List Entry
  outcome : Except SourceError LinkedProgram
deriving DecidableEq

/-- The entries for the shadowings of a program: their number, then each. -/
def shadowingEntries : List Shadowing → List Entry
  | [] => []
  | shadowings => .shadowingsFound shadowings.length :: shadowings.map .shadowed

/-- Links a program. Uses are entered as they are met; all else is entered when every use is
linked. -/
def Program.analyse (program : Program) : Analysis :=
  match program.link with
  | (linking, some duplicate) =>
    ⟨linking.sightings.map .sighted, .error (.duplicateDefinition duplicate.text duplicate.span)⟩
  | (linking, none) =>
    let definitions := program.definitions.length
    ⟨linking.sightings.map .sighted ++ shadowingEntries linking.table.shadowings ++
        [.linked linking.table.useCount definitions, .completed definitions],
      .ok ⟨program, linking.table⟩⟩

/-- Reads and links a program from a cursor on, and returns where the reading ended. -/
def Cursor.analyse (cursor : Cursor) : Analysis × Cursor :=
  match cursor.readProgram with
  | (.error fault, last) => (⟨[], .error (.grammar fault.diagnostic)⟩, last)
  | (.ok program, last) => (program.analyse, last)

/-- Splits a text into tokens, reads them as a program, and links it. -/
def analyse (source : String) : Analysis :=
  match scan source with
  | .error error => ⟨[], .error (.lexical error)⟩
  | .ok tokens =>
    let analysis := (Cursor.ofTokens tokens).analyse.1
    { analysis with journal := .scanned tokens.length :: analysis.journal }

/-- The linked program of a text, or the reason why there is none. -/
def parse (source : String) : Except SourceError LinkedProgram := (analyse source).outcome

/-- The program of the tokens from a cursor on, or the reason why there is none. -/
def Cursor.parse (cursor : Cursor) : Except SourceError LinkedProgram := cursor.analyse.1.outcome

/-- The text that consists of some lines. -/
def joinLines (lines : List String) : String := "\n".intercalate lines

end ScopedLambda
