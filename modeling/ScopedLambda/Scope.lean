import ScopedLambda.Expr

/-!
# What is visible at one point of a tree

A scope maps texts to what binds them: parameters of the functions around the point, and
definitions. Entries are added in front, so the latest one for a text is the one that counts; a
parameter always counts before a definition.

* `Binder` — what a use of a name can refer to.
* `Scope` — the two maps.
* `Scope.binder?` — what a text refers to in a scope.
* `Scope.define`, `Scope.bind` — a scope with a definition, or a parameter, added.
-/

set_option autoImplicit false

namespace ScopedLambda

/-- The entry in front answers for its own key and hides no other. -/
theorem lookup_cons_eq_ite {α β : Type} [DecidableEq α] (key other : α) (value : β)
    (entries : List (α × β)) :
    ((key, value) :: entries).lookup other =
      if other = key then some value else entries.lookup other := by
  by_cases h : other = key
  · simp [h]
  · simp [List.lookup_cons, beq_false_of_ne h, h]

/-- What introduces a name: a definition, by its index, or a function, by its identity. -/
inductive Binder where
  | definition (index : Nat)
  | function (id : FunctionId)
deriving DecidableEq

/-- The definitions and parameters visible at one point, latest first. -/
structure Scope where
  definitions : List (String × Nat) := []
  parameters : List (String × FunctionId) := []
deriving DecidableEq

namespace Scope

/-- The definition of that text, by its index. -/
def definition? (scope : Scope) (text : String) : Option Nat := scope.definitions.lookup text

/-- The innermost function with that parameter. -/
def function? (scope : Scope) (text : String) : Option FunctionId := scope.parameters.lookup text

/-- What a text refers to: a parameter if there is one, else a definition. -/
def binder? (scope : Scope) (text : String) : Option Binder :=
  match scope.function? text with
  | some id => some (.function id)
  | none => (scope.definition? text).map .definition

/-- The scope with a definition added. -/
def define (scope : Scope) (text : String) (index : Nat) : Scope :=
  { scope with definitions := (text, index) :: scope.definitions }

/-- The scope with a parameter added. -/
def bind (scope : Scope) (text : String) (id : FunctionId) : Scope :=
  { scope with parameters := (text, id) :: scope.parameters }

/-! ## Looking up what was added -/

theorem definition?_define (scope : Scope) (text other : String) (index : Nat) :
    (scope.define text index).definition? other =
      if other = text then some index else scope.definition? other :=
  lookup_cons_eq_ite text other index scope.definitions

theorem function?_define (scope : Scope) (text other : String) (index : Nat) :
    (scope.define text index).function? other = scope.function? other := rfl

theorem function?_bind (scope : Scope) (text other : String) (id : FunctionId) :
    (scope.bind text id).function? other =
      if other = text then some id else scope.function? other :=
  lookup_cons_eq_ite text other id scope.parameters

theorem definition?_bind (scope : Scope) (text other : String) (id : FunctionId) :
    (scope.bind text id).definition? other = scope.definition? other := rfl

theorem binder?_bind (scope : Scope) (text other : String) (id : FunctionId) :
    (scope.bind text id).binder? other =
      if other = text then some (.function id) else scope.binder? other := by
  unfold binder?
  rw [function?_bind, definition?_bind]
  by_cases h : other = text <;> simp [h]

end Scope

end ScopedLambda
