import ScopedLambda.Node

/-!
# Visitors

A visitor is called at the nodes of a tree and carries a state along. For each kind of node it may
have a way of its own to deal with such a node; it is handed the walk through what is inside the
node, and goes inside exactly if it carries the walk out. Where it has no way of its own, it goes
inside. Inside a node the visitor is called at the nodes there in the order of the source: a
definition's name before its expression, a parameter before the body, a callee before its argument,
definitions before the trailing expression.

* `Visitor` — what is done at each kind of node.
* `Visitor.visitExpr`, `Visitor.visitDefinition`, `Visitor.visitProgram` — a visitor called at the
  top of an expression, at a definition, at a program; `Visitor.visit` — at any node.
* `Visitor.recording` — notes every node, and goes inside the nodes chosen by a test.
* `Visitor.naming` — notes every name.
* `Visitor.finding` — looks for the function of an identity.
-/

set_option autoImplicit false

namespace ScopedLambda

/-- What is done at each kind of node, given the walk through what is inside it. -/
structure Visitor (σ : Type) where
  program : Program → (σ → σ) → σ → σ := fun _ walk => walk
  definition : Definition → (σ → σ) → σ → σ := fun _ walk => walk
  function : FunctionNode → (σ → σ) → σ → σ := fun _ walk => walk
  application : Expr → Expr → Span → (σ → σ) → σ → σ := fun _ _ _ walk => walk
  name : Name → σ → σ := fun _ state => state

namespace Visitor

variable {σ : Type}

/-- Calls a visitor at the top of an expression. -/
def visitExpr (visitor : Visitor σ) : Expr → σ → σ
  | .var name => visitor.name name
  | .lam id parameter body span =>
    visitor.function ⟨id, parameter, body, span⟩ fun state =>
      visitor.visitExpr body (visitor.name parameter state)
  | .app callee argument span =>
    visitor.application callee argument span fun state =>
      visitor.visitExpr argument (visitor.visitExpr callee state)

/-- Calls a visitor at a definition. -/
def visitDefinition (visitor : Visitor σ) (definition : Definition) : σ → σ :=
  visitor.definition definition fun state =>
    visitor.visitExpr definition.expression (visitor.name definition.name state)

/-- Calls a visitor at a program. -/
def visitProgram (visitor : Visitor σ) (program : Program) : σ → σ :=
  visitor.program program fun state =>
    let state := program.definitions.foldl (fun state definition =>
      visitor.visitDefinition definition state) state
    program.expression.elim state (visitor.visitExpr · state)

/-- Calls a visitor at a node. -/
def visit (visitor : Visitor σ) : Node → σ → σ
  | .program program => visitor.visitProgram program
  | .definition definition => visitor.visitDefinition definition
  | .function lambda => visitor.visitExpr (.lam lambda.id lambda.parameter lambda.body lambda.span)
  | .application callee argument span => visitor.visitExpr (.app callee argument span)
  | .name name => visitor.name name

/-- Notes every node it is called at, and goes inside those that `enter` chooses. -/
def recording (enter : Node → Bool) : Visitor (List Node) :=
  let note (node : Node) (walk : List Node → List Node) (noted : List Node) : List Node :=
    if enter node then walk (noted ++ [node]) else noted ++ [node]
  { program := fun program => note (.program program)
    definition := fun definition => note (.definition definition)
    function := fun lambda => note (.function lambda)
    application := fun callee argument span => note (.application callee argument span)
    name := fun name noted => noted ++ [.name name] }

/-- Notes every name it is called at. -/
def naming : Visitor (List Name) where
  name name noted := noted ++ [name]

/-- Looks for the function of an identity, and stops going inside when it has found one. -/
def finding (id : FunctionId) : Visitor (Option FunctionNode) where
  function lambda walk found :=
    if lambda.id = id then some lambda else if found.isNone then walk found else found

/-- A visitor is called at an expression as at its node. -/
theorem visit_node (visitor : Visitor σ) (expr : Expr) :
    visitor.visit expr.node = visitor.visitExpr expr := by
  cases expr <;> rfl

end Visitor

end ScopedLambda
