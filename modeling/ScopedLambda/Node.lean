import ScopedLambda.Program

/-!
# Visiting the nodes of a tree

A visit lists the nodes of a tree from the top down and from left to right: a definition's name
before its expression, a parameter before the body, a callee before its argument. At every node the
visitor decides whether to go inside.

* `Node` — a program, definition, function, application or name.
* `Expr.visit`, `Definition.visit`, `Program.visit` — the nodes met by a visitor that goes inside
  the nodes it chooses.

A definition binds nothing to the outside and a name binds nothing at all: `Node.binds` gives each
node's own answer.
-/

set_option autoImplicit false

namespace ScopedLambda

/-- A node of the tree of a program. -/
inductive Node where
  | program (program : Program)
  | definition (definition : Definition)
  | function (function : FunctionNode)
  | application (callee argument : Expr) (span : Span)
  | name (name : Name)
deriving DecidableEq

/-- The kinds of node that have something inside. -/
inductive NodeKind where
  | program
  | definition
  | function
  | application
deriving DecidableEq

namespace Node

/-- The kind of a node; a name has nothing inside and so has none. -/
def kind? : Node → Option NodeKind
  | .program _ => some .program
  | .definition _ => some .definition
  | .function _ => some .function
  | .application _ _ _ => some .application
  | .name _ => none

/-- Whether a node taken by itself binds `text`. What a definition binds stays inside it. -/
def binds (text : String) : Node → Bool
  | .program whole => whole.binds text
  | .definition _ => false
  | .function lambda => lambda.parameter.text == text || lambda.body.binds text
  | .application callee argument _ => callee.binds text || argument.binds text
  | .name _ => false

end Node

/-- The node at the top of an expression. -/
def Expr.node : Expr → Node
  | .var name => .name name
  | .lam id parameter body span => .function ⟨id, parameter, body, span⟩
  | .app callee argument span => .application callee argument span

/-- The nodes of an expression met by a visitor that goes inside the nodes chosen by `enter`. -/
def Expr.visit (enter : Node → Bool) : Expr → List Node
  | .var name => [.name name]
  | .lam id parameter body span =>
    let node := Node.function ⟨id, parameter, body, span⟩
    node :: if enter node then .name parameter :: body.visit enter else []
  | .app callee argument span =>
    let node := Node.application callee argument span
    node :: if enter node then callee.visit enter ++ argument.visit enter else []

/-- The nodes of a definition met by a visitor. -/
def Definition.visit (enter : Node → Bool) (definition : Definition) : List Node :=
  let node := Node.definition definition
  node :: if enter node then .name definition.name :: definition.expression.visit enter else []

/-- The nodes of a program met by a visitor. -/
def Program.visit (enter : Node → Bool) (program : Program) : List Node :=
  let node := Node.program program
  node :: if enter node then
    program.definitions.flatMap (·.visit enter) ++ program.expression.toList.flatMap (·.visit enter)
  else []

theorem Expr.binds_node (text : String) (expr : Expr) : expr.node.binds text = expr.binds text := by
  cases expr <;> rfl

end ScopedLambda
