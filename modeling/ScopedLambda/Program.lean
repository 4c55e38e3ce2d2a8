import ScopedLambda.Expr

/-!
# Programs

A program is a list of definitions and, after them, at most one expression.

* `Definition` — `def name = expression`.
* `Program` — the definitions and the trailing expression.
* `Program.expressions` — every root expression, in order.
* `Program.uses`, `Program.names`, `Program.functions`, `Program.functionsInsideOut` — as for
  expressions, over all root expressions.
* `Program.binds` — whether the trailing expression binds a text; what definitions bind stays
  inside them.
-/

set_option autoImplicit false

namespace ScopedLambda

/-- `def name = expression` -/
structure Definition where
  name : Name
  expression : Expr
  span : Span
deriving DecidableEq

/-- Definitions, and after them at most one expression. -/
structure Program where
  definitions : List Definition
  expression : Option Expr
deriving DecidableEq

namespace Program

/-- The expressions of the definitions, then the trailing one. -/
def expressions (program : Program) : List Expr :=
  program.definitions.map (·.expression) ++ program.expression.toList

/-- The names in expression position, from left to right. -/
def uses (program : Program) : List Name := program.expressions.flatMap (·.uses)

/-- All names, from left to right. -/
def names (program : Program) : List Name :=
  program.definitions.flatMap (fun definition => definition.name :: definition.expression.names) ++
    program.expression.toList.flatMap (·.names)

/-- The functions, each before those inside it. -/
def functions (program : Program) : List FunctionNode :=
  program.expressions.flatMap (·.functions)

/-- The functions, each after those inside it. -/
def functionsInsideOut (program : Program) : List FunctionNode :=
  program.expressions.flatMap (·.functionsInsideOut)

/-- Whether the trailing expression binds `text`. -/
def binds (text : String) (program : Program) : Bool :=
  program.expression.any (·.binds text)

/-- The root expression of a definition, or the trailing one. -/
def root? (program : Program) : Option Nat → Option Expr
  | none => program.expression
  | some index => program.definitions[index]?.map (·.expression)

end Program

end ScopedLambda
