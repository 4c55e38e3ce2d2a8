import ScopedLambda.BindingTable
import ScopedLambda.Program

/-!
# Linking uses to their binders

One walk over a program, from the top down and from left to right, links every use of a name to what
it refers to.

* The program has a scope of its own. Every definition is walked through in an empty scope and only
  then made known to the program's scope, so the trailing expression sees all definitions and no
  definition sees any.
* The body of a function is walked through in a copy of the scope around it with the parameter
  added. If the parameter was visible already, that is noted as a shadowing.
* Both sides of an application are walked through in one copy of the scope around it.
* A definition whose name is known already ends the walk.

The walk keeps the scopes it is inside of as a stack, innermost first; their number is the depth at
which a use is met.

* `Sighting` — a use as the walk met it.
* `Linking` — the open scopes, the table, and the sightings so far.
* `Linking.linkExpr`, `Linking.linkDefinitions` — the walk.
* `Program.link` — the walk over a whole program, with the name that ended it, if one did.

Principal result: `scopes_linkExpr` — an expression leaves the open scopes as they were.
-/

set_option autoImplicit false

namespace ScopedLambda

/-- A use as the walk met it: what it refers to, and inside how many scopes. -/
structure Sighting where
  name : Name
  binder : Option Binder
  depth : Nat
deriving DecidableEq

/-- A walk under way: the open scopes, innermost first, and what was found so far. -/
structure Linking where
  scopes : List Scope := []
  table : BindingTable := {}
  sightings : List Sighting := []
deriving DecidableEq

namespace Linking

/-! ## Scopes -/

/-- The innermost scope; nothing is visible outside all scopes. -/
def current (linking : Linking) : Scope := linking.scopes.head?.getD {}

/-- How many scopes are open. -/
def depth (linking : Linking) : Nat := linking.scopes.length

/-- Opens a scope. -/
def enter (linking : Linking) (scope : Scope) : Linking :=
  { linking with scopes := scope :: linking.scopes }

/-- Closes the innermost scope. -/
def leave (linking : Linking) : Linking := { linking with scopes := linking.scopes.tail }

/-- Makes a definition known to the innermost scope. -/
def define (linking : Linking) (text : String) (index : Nat) : Linking :=
  { linking with
    scopes := match linking.scopes with
      | [] => []
      | scope :: outer => scope.define text index :: outer }

/-! ## The walk -/

/-- Links one use. -/
def linkName (linking : Linking) (name : Name) : Linking :=
  let binder := linking.current.binder? name.text
  { linking with
    table := linking.table.record name.id binder
    sightings := linking.sightings ++ [⟨name, binder, linking.depth⟩] }

/-- Notes a shadowing, if the parameter of a function is visible already. -/
def noteParameter (linking : Linking) (id : FunctionId) (parameter : Name) : Linking :=
  match linking.current.function? parameter.text with
  | none => linking
  | some shadowed =>
    { linking with
      table := linking.table.recordShadowing ⟨parameter.text, shadowed, id, parameter.span⟩ }

/-- Links the uses in an expression. -/
def linkExpr (linking : Linking) : Expr → Linking
  | .var name => linking.linkName name
  | .lam id parameter body _ =>
    let inner := linking.current.bind parameter.text id
    (((linking.noteParameter id parameter).enter inner).linkExpr body).leave
  | .app callee argument _ =>
    (((linking.enter linking.current).linkExpr callee).linkExpr argument).leave

/-- Links the uses in a definition, then makes the definition known. -/
def linkDefinition (linking : Linking) (index : Nat) (definition : Definition) : Linking :=
  (((linking.enter {}).linkExpr definition.expression).leave).define definition.name.text index

/-- Links definitions, the first of which has the index `index`. The walk ends at the first whose
name is known already; that name is returned. -/
def linkDefinitions (linking : Linking) (index : Nat) : List Definition → Linking × Option Name
  | [] => (linking, none)
  | definition :: rest =>
    if (linking.current.definition? definition.name.text).isSome then
      (linking, some definition.name)
    else
      (linking.linkDefinition index definition).linkDefinitions (index + 1) rest

/-! ## Open scopes -/

@[simp] theorem scopes_enter (linking : Linking) (scope : Scope) :
    (linking.enter scope).scopes = scope :: linking.scopes := rfl

@[simp] theorem scopes_leave (linking : Linking) : linking.leave.scopes = linking.scopes.tail := rfl

@[simp] theorem scopes_linkName (linking : Linking) (name : Name) :
    (linking.linkName name).scopes = linking.scopes := rfl

@[simp] theorem scopes_noteParameter (linking : Linking) (id : FunctionId) (parameter : Name) :
    (linking.noteParameter id parameter).scopes = linking.scopes := by
  unfold noteParameter
  split <;> rfl

/-- **Walking through an expression leaves the open scopes as they were.** -/
@[simp] theorem scopes_linkExpr (linking : Linking) (expr : Expr) :
    (linking.linkExpr expr).scopes = linking.scopes := by
  induction expr generalizing linking with
  | var name => rfl
  | lam id parameter body span ih => simp [linkExpr, ih]
  | app callee argument span ihc iha => simp [linkExpr, ihc, iha]

end Linking

/-- The walk over a whole program, with the second name of a pair of equal definitions if that
ended it. -/
def Program.link (program : Program) : Linking × Option Name :=
  let opened : Linking := { scopes := [{}] }
  match opened.linkDefinitions 0 program.definitions with
  | (linking, some duplicate) => (linking, some duplicate)
  | (linking, none) => ((program.expression.elim linking linking.linkExpr).leave, none)

end ScopedLambda
