import ScopedLambda.Analysis

/-!
# Sessions on a cursor

A session drives one cursor through a sequence of steps and collects their answers. Reading a
program is a step like any other: it begins where the cursor stands, counts identities from 0, and
leaves the cursor where the reading ended, whether it succeeded or not.

* `Step`, `Answer` — what can be asked of a cursor, and what it answers.
* `Cursor.perform` — one step.
* `Cursor.performAll` — a session.
-/

set_option autoImplicit false

namespace ScopedLambda

/-- Something to be asked of a cursor. -/
inductive Step where
  | next
  | previous
  | peek
  | hasNext
  | hasPrevious
  | endSpan
  | parse
deriving DecidableEq

/-- The answer to a step. -/
inductive Answer where
  | token (token : Option Token)
  | flag (value : Bool)
  | span (span : Span)
  | program (outcome : Except SourceError LinkedProgram)
deriving DecidableEq

namespace Cursor

/-- The answer to a step, and the cursor after it. -/
def perform (cursor : Cursor) : Step → Answer × Cursor
  | .next => (.token cursor.next.1, cursor.next.2)
  | .previous => (.token cursor.previous.1, cursor.previous.2)
  | .peek => (.token cursor.peek?, cursor)
  | .hasNext => (.flag cursor.hasNext, cursor)
  | .hasPrevious => (.flag cursor.hasPrevious, cursor)
  | .endSpan => (.span cursor.endSpan, cursor)
  | .parse => (.program cursor.parse, cursor.analyse.2)

/-- The answers to a sequence of steps, and the cursor after them. -/
def performAll (cursor : Cursor) : List Step → List Answer × Cursor
  | [] => ([], cursor)
  | step :: steps =>
    let (answer, middle) := cursor.perform step
    let (answers, last) := middle.performAll steps
    (answer :: answers, last)

end Cursor

end ScopedLambda
