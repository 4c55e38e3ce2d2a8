import ScopedLambda.Linking
import ScopedLambda.Visitor

/-!
# Linked programs

A linked program is a program together with its table of bindings. It answers questions about names,
functions and binders by their identities, also about those of another program.

* `LinkedProgram` — the tree and the table.
* `LinkedProgram.roleOf` — whether a name introduces something, is free, or refers to a binder.
* `LinkedProgram.function?`, `definition?`, `binderText?` — what an identity stands for.
* `LinkedProgram.binders` — the definitions that are used and all functions.
-/

set_option autoImplicit false

namespace ScopedLambda

/-- A program with its table of bindings. -/
structure LinkedProgram extends Program where
  table : BindingTable
deriving DecidableEq

/-- What a name is in its program. -/
inductive Role where
  /-- The name introduces something and refers to nothing. -/
  | declaration
  | free
  | bound (binder : Binder)
deriving DecidableEq

namespace LinkedProgram

/-- What the name of an identity is in the program. -/
def roleOf (program : LinkedProgram) (id : NameId) : Role :=
  match program.table.bindings.lookup id with
  | none => .declaration
  | some none => .free
  | some (some binder) => .bound binder

/-- The function of an identity, looked for by a visitor. -/
def function? (program : LinkedProgram) (id : FunctionId) : Option FunctionNode :=
  (Visitor.finding id).visitProgram program.toProgram none

/-- The definition of an index. -/
def definition? (program : LinkedProgram) (index : Nat) : Option Definition :=
  program.definitions[index]?

/-- The text that a binder introduces. -/
def binderText? (program : LinkedProgram) : Binder → Option String
  | .definition index => (program.definition? index).map (·.name.text)
  | .function id => (program.function? id).map (·.parameter.text)

/-- The definitions with at least one use, by index, then all functions by identity — which is the
order in which they end. -/
def binders (program : LinkedProgram) : List Binder :=
  ((List.range program.definitions.length).map .definition).filter
      (fun binder => !(program.table.usesOf binder).isEmpty) ++
    program.functionsInsideOut.map (.function ·.id)

/-- What a name is agrees with the table's answers about it. -/
theorem roleOf_eq (program : LinkedProgram) (id : NameId) :
    program.roleOf id =
      if program.table.isUse id then (program.table.binderOf? id).elim .free .bound
      else .declaration := by
  unfold roleOf BindingTable.isUse BindingTable.binderOf?
  cases program.table.bindings.lookup id with
  | none => rfl
  | some binder => cases binder <;> rfl

end LinkedProgram

end ScopedLambda
