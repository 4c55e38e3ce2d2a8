import ScopedLambda.Program

/-!
# Structure text

A program written as structure text names every node and puts its parts in parentheses. The
definitions share the first line and the trailing expression has a line of its own.

    DefinitionList(Definition(Name(identity), Function(Name(x), Name(x))))
    Application(Name(identity), Name(y))

* `Expr.toStructure`, `Definition.toStructure`, `Program.toStructure` — the text of a tree.
-/

set_option autoImplicit false

namespace ScopedLambda

/-- A name as structure text. -/
def Name.toStructure (name : Name) : String := "Name(" ++ name.text ++ ")"

/-- An expression as structure text. -/
def Expr.toStructure : Expr → String
  | .var name => name.toStructure
  | .lam _ parameter body _ =>
    "Function(" ++ parameter.toStructure ++ ", " ++ body.toStructure ++ ")"
  | .app callee argument _ =>
    "Application(" ++ callee.toStructure ++ ", " ++ argument.toStructure ++ ")"

/-- A definition as structure text. -/
def Definition.toStructure (definition : Definition) : String :=
  "Definition(" ++ definition.name.toStructure ++ ", " ++ definition.expression.toStructure ++ ")"

/-- The line of the definitions; without any there is no such line. -/
def definitionLines : List Definition → List String
  | [] => []
  | definitions =>
    ["DefinitionList(" ++ ", ".intercalate (definitions.map (·.toStructure)) ++ ")"]

/-- A program as structure text. -/
def Program.toStructure (program : Program) : String :=
  "\n".intercalate
    (definitionLines program.definitions ++ program.expression.toList.map (·.toStructure))

end ScopedLambda
