import ScopedLambda.Span

/-!
# Diagnostics

A diagnostic says what went wrong and, as far as it is known, what was due, what was found instead
and where.

* `Diagnostic` — the message and the three optional details.
* `Diagnostic.render` — the diagnostic in one line; a detail that is absent leaves no trace.
-/

set_option autoImplicit false

namespace ScopedLambda

/-- A message with optional details. -/
structure Diagnostic where
  message : String
  expected : Option String := none
  found : Option String := none
  position : Option Span := none
deriving DecidableEq

namespace Diagnostic

/-- What was due and what was found, introduced by a colon. -/
def renderDetails : Option String → Option String → String
  | some expected, some found => ": expected " ++ expected ++ ", found " ++ found
  | some expected, none => ": expected " ++ expected
  | none, some found => ": found " ++ found
  | none, none => ""

/-- The diagnostic in one line. -/
def render (diagnostic : Diagnostic) : String :=
  diagnostic.message ++ renderDetails diagnostic.expected diagnostic.found ++
    diagnostic.position.elim "" (" at " ++ ·.render)

end Diagnostic

end ScopedLambda
