import ScopedLambda.Diagnostic
import ScopedLambda.Token.Scan

/-!
# Why a text is no program

A text is refused for one of three reasons: a character of it belongs to no token, its tokens do not
follow the grammar, or two of its definitions share a name. Each reason shuts out the later ones.

* `SourceError` — the three reasons.
* `SourceError.message` — the reason in one line.
* `SourceError.cause?` — the inner reason by itself, where there is one.
-/

set_option autoImplicit false

namespace ScopedLambda

/-- A reason for which a text is no program. -/
inductive SourceError where
  | lexical (error : LexicalError)
  | grammar (diagnostic : Diagnostic)
  /-- The definition whose name stands at `span` has the name of an earlier one. -/
  | duplicateDefinition (text : String) (span : Span)
deriving DecidableEq

namespace SourceError

/-- The inner reason by itself, where there is one. -/
def cause? : SourceError → Option String
  | lexical error => some error.message
  | grammar diagnostic => some diagnostic.render
  | duplicateDefinition _ _ => none

/-- The reason in one line. -/
def message : SourceError → String
  | lexical error => "lexical error: " ++ error.message
  | grammar diagnostic => "syntax error: " ++ diagnostic.render
  | duplicateDefinition text span =>
    "duplicate definition for '" ++ text ++ "' at " ++ span.render

end SourceError

end ScopedLambda
