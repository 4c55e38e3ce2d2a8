import ScopedLambda.Program

/-!
# Lambda text

A program written as lambda text has one line for each definition and one for the trailing
expression. Where two names would touch, one space stands between them; there is no other blank.

    def identity = λx.x
    (identity y)

* `Expr.toLambda`, `Definition.toLambda`, `Program.toLambda` — the text of a tree.
-/

set_option autoImplicit false

namespace ScopedLambda

/-- An expression as lambda text. -/
def Expr.toLambda : Expr → String
  | .var name => name.text
  | .lam _ parameter body _ => "λ" ++ parameter.text ++ "." ++ body.toLambda
  | .app callee argument _ => "(" ++ callee.toLambda ++ " " ++ argument.toLambda ++ ")"

/-- A definition as lambda text. -/
def Definition.toLambda (definition : Definition) : String :=
  "def " ++ definition.name.text ++ " = " ++ definition.expression.toLambda

/-- A program as lambda text, line by line. -/
def Program.toLambda (program : Program) : String :=
  "\n".intercalate
    (program.definitions.map (·.toLambda) ++ program.expression.toList.map (·.toLambda))

end ScopedLambda
