import ScopedLambda.Diagnostic
import ScopedLambda.Token

/-!
# Why tokens are no program

Reading a program ends at the first token that cannot stand where it does, or at the end of the
tokens if more were due.

* `Expectation` — what was due at that place.
* `GrammarFault` — the three ways in which tokens fail to be a program.
* `GrammarFault.diagnostic` — the fault as it is reported.
* `maxNesting` — how many expressions may lie inside each other.
-/

set_option autoImplicit false

namespace ScopedLambda

/-- How many expressions may be open at once. Whatever walks a tree by recursion goes no deeper. -/
def maxNesting : Nat := 256

/-- What the grammar admits at some place. -/
inductive Expectation where
  | token (kind : TokenKind)
  | expression
  | endOfInput
deriving DecidableEq

/-- What a message calls the thing that was due. -/
def Expectation.label : Expectation → String
  | token kind => kind.label
  | expression => "a name, function, or application"
  | endOfInput => "end of input"

/-- A way in which tokens fail to be a program. -/
inductive GrammarFault where
  /-- A token stands where something else was due. -/
  | unexpectedToken (token : Token) (due : Expectation)
  /-- No token is left and something was due; `position` is past the last token. -/
  | unexpectedEnd (due : Expectation) (position : Span)
  /-- An expression would begin inside `maxNesting` others. -/
  | nestedTooDeeply (token : Token)
deriving DecidableEq

/-- The fault as it is reported. -/
def GrammarFault.diagnostic : GrammarFault → Diagnostic
  | unexpectedToken token due =>
    ⟨"unexpected token", some due.label, some token.describe, some token.span⟩
  | unexpectedEnd due position =>
    ⟨"unexpected end of input", some due.label, none, some position⟩
  | nestedTooDeeply token =>
    ⟨"expression nested too deeply",
      some ("at most " ++ toString maxNesting ++ " levels of nesting"),
      some token.describe, some token.span⟩

end ScopedLambda
