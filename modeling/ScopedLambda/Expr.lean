import ScopedLambda.Span

/-!
# Expressions

An expression of the lambda calculus is a name, a function of one parameter, or an application.
Every occurrence of a name and every function carries an identity of its own, so that two
occurrences of one text stay apart and what is found out about them can be kept beside the tree.

* `Name` — one occurrence of a name, be it a use or a place where the name is introduced.
* `Expr` — the tree.
* `FunctionNode` — a function seen by itself.
* `Expr.uses`, `Expr.names` — the names in expression position, and all names, in visiting order.
* `Expr.functions` — the functions, each before those inside it; `Expr.functionsInsideOut` — each
  after those inside it.
* `Expr.binds` — whether some function inside binds a text.
* `Expr.descend?` — the part of an expression at the end of a path.
-/

set_option autoImplicit false

namespace ScopedLambda

/-- The identity of one occurrence of a name. -/
structure NameId where
  index : Nat
deriving DecidableEq

/-- The identity of a function. -/
structure FunctionId where
  index : Nat
deriving DecidableEq

/-- One occurrence of a name. -/
structure Name where
  id : NameId
  text : String
  span : Span
deriving DecidableEq

/-- An expression of the lambda calculus. -/
inductive Expr where
  /-- A name where an expression stands. -/
  | var (name : Name)
  /-- `λparameter.body` -/
  | lam (id : FunctionId) (parameter : Name) (body : Expr) (span : Span)
  /-- `(callee argument)` -/
  | app (callee argument : Expr) (span : Span)
deriving DecidableEq

/-- A function seen by itself. -/
structure FunctionNode where
  id : FunctionId
  parameter : Name
  body : Expr
  span : Span
deriving DecidableEq

/-- One step down into an expression. -/
inductive Branch where
  | body
  | callee
  | argument
deriving DecidableEq

namespace Expr

/-- Where an expression stands. -/
def span : Expr → Span
  | .var name => name.span
  | .lam _ _ _ span => span
  | .app _ _ span => span

/-- The names in expression position, from left to right. -/
def uses : Expr → List Name
  | .var name => [name]
  | .lam _ _ body _ => body.uses
  | .app callee argument _ => callee.uses ++ argument.uses

/-- All names, parameters included, from left to right. -/
def names : Expr → List Name
  | .var name => [name]
  | .lam _ parameter body _ => parameter :: body.names
  | .app callee argument _ => callee.names ++ argument.names

/-- The functions, each before those inside it. -/
def functions : Expr → List FunctionNode
  | .var _ => []
  | .lam id parameter body span => ⟨id, parameter, body, span⟩ :: body.functions
  | .app callee argument _ => callee.functions ++ argument.functions

/-- The functions, each after those inside it. -/
def functionsInsideOut : Expr → List FunctionNode
  | .var _ => []
  | .lam id parameter body span => body.functionsInsideOut ++ [⟨id, parameter, body, span⟩]
  | .app callee argument _ => callee.functionsInsideOut ++ argument.functionsInsideOut

/-- Whether some function inside the expression has `text` as its parameter. -/
def binds (text : String) : Expr → Bool
  | .var _ => false
  | .lam _ parameter body _ => parameter.text == text || body.binds text
  | .app callee argument _ => callee.binds text || argument.binds text

/-- The part of an expression one step down, if it has that branch. -/
def child? : Expr → Branch → Option Expr
  | .lam _ _ body _, .body => some body
  | .app callee _ _, .callee => some callee
  | .app _ argument _, .argument => some argument
  | _, _ => none

/-- The part of an expression at the end of a path. -/
def descend? (expr : Expr) : List Branch → Option Expr
  | [] => some expr
  | branch :: path => (expr.child? branch).bind (descend? · path)

/-- A path of two parts is followed part by part. -/
theorem descend?_append (expr : Expr) (first second : List Branch) :
    expr.descend? (first ++ second) = (expr.descend? first).bind (·.descend? second) := by
  induction first generalizing expr with
  | nil => simp [descend?]
  | cons branch rest ih =>
    simp only [List.cons_append, descend?, Option.bind_assoc]
    congr
    funext child
    exact ih child

/-- How many expressions lie inside each other at the deepest place; a lone name counts one. -/
def height : Expr → Nat
  | .var _ => 1
  | .lam _ _ body _ => body.height + 1
  | .app callee argument _ => max callee.height argument.height + 1

/-! ## Both orders hold the same functions -/

theorem functionsInsideOut_perm (expr : Expr) :
    expr.functionsInsideOut.Perm expr.functions := by
  induction expr with
  | var _ => exact .refl _
  | lam id parameter body span ih =>
    exact (List.perm_append_singleton _ _).trans (ih.cons _)
  | app callee argument span ihc iha => exact ihc.append iha

/-- A text is bound inside an expression exactly when it is some function's parameter. -/
theorem binds_iff (text : String) (expr : Expr) :
    expr.binds text = true ↔ ∃ function ∈ expr.functions, function.parameter.text = text := by
  induction expr with
  | var _ => simp [binds, functions]
  | lam id parameter body span ih => simp [binds, functions, ih]
  | app callee argument span ihc iha =>
    simp [binds, functions, ihc, iha, or_and_right, exists_or]

end Expr

end ScopedLambda
