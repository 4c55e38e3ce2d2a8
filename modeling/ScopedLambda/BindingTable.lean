import ScopedLambda.Scope

/-!
# The table of bindings

What is found out about the uses of names is kept in a table beside the tree, under the identities
of its nodes. The table can be read in both directions: from a use to its binder, and from a binder
to its uses.

* `Shadowing` — a parameter that hides the parameter of a function around it.
* `BindingTable` — the uses with their binders, the binders with their uses, and the shadowings.
* `BindingTable.record` — the table with one more use, entered in both directions.
* `binderOf?`, `isUse`, `isFree`, `usesOf`, `useCount`, `needsRenaming` — questions to the table.

A name that introduces something — a parameter or the name of a definition — is no use, so the
table does not know it.
-/

set_option autoImplicit false

namespace ScopedLambda

/-- A function whose parameter hides the equal parameter of a function around it. To put the outer
function's argument into the inner body, one of the two parameters has to be renamed first. -/
structure Shadowing where
  text : String
  shadowed : FunctionId
  shadowing : FunctionId
  span : Span
deriving DecidableEq

/-- The bindings of a program, in visiting order. -/
structure BindingTable where
  bindings : List (NameId × Option Binder) := []
  uses : List (Binder × List NameId) := []
  shadowings : List Shadowing := []
deriving DecidableEq

namespace BindingTable

/-- Adds a use to the uses of its binder. -/
def addUse (binder : Binder) (id : NameId) :
    List (Binder × List NameId) → List (Binder × List NameId)
  | [] => [(binder, [id])]
  | (other, ids) :: rest =>
    if other = binder then (other, ids ++ [id]) :: rest else (other, ids) :: addUse binder id rest

/-- The table with one more use, which refers to `binder` or is free. -/
def record (table : BindingTable) (id : NameId) (binder : Option Binder) : BindingTable :=
  { table with
    bindings := table.bindings ++ [(id, binder)]
    uses := binder.elim table.uses (addUse · id table.uses) }

/-- The table with one more shadowing. -/
def recordShadowing (table : BindingTable) (shadowing : Shadowing) : BindingTable :=
  { table with shadowings := table.shadowings ++ [shadowing] }

/-! ## Questions -/

/-- What a name refers to; `none` for a free use and for a name that is no use. -/
def binderOf? (table : BindingTable) (id : NameId) : Option Binder :=
  (table.bindings.lookup id).join

/-- Whether a name is a use. -/
def isUse (table : BindingTable) (id : NameId) : Bool := (table.bindings.lookup id).isSome

/-- Whether a name is a use that refers to nothing. -/
def isFree (table : BindingTable) (id : NameId) : Bool := table.bindings.lookup id == some none

/-- The uses that refer to a binder, in visiting order. -/
def usesOf (table : BindingTable) (binder : Binder) : List NameId :=
  (table.uses.lookup binder).getD []

/-- How many uses there are, free ones included. -/
def useCount (table : BindingTable) : Nat := table.bindings.length

/-- Whether some parameter has to be renamed before arguments may be put into bodies. -/
def needsRenaming (table : BindingTable) : Bool := !table.shadowings.isEmpty

/-! ## Recording -/

theorem lookup_addUse (uses : List (Binder × List NameId)) (binder other : Binder) (id : NameId) :
    ((addUse binder id uses).lookup other).getD [] =
      (uses.lookup other).getD [] ++ if other = binder then [id] else [] := by
  induction uses with
  | nil => by_cases h : other = binder <;> simp [addUse, lookup_cons_eq_ite, h]
  | cons entry rest ih =>
    obtain ⟨first, ids⟩ := entry
    by_cases hfirst : first = binder
    · subst hfirst
      by_cases h : other = first <;> simp [addUse, lookup_cons_eq_ite, h]
    · by_cases h : other = first
      · subst h
        simp [addUse, hfirst]
      · simpa [addUse, hfirst, lookup_cons_eq_ite, h] using ih

/-- A use that refers to a binder comes last among that binder's uses, and changes no other's. -/
theorem usesOf_record (table : BindingTable) (id : NameId) (binder : Option Binder)
    (other : Binder) :
    (table.record id binder).usesOf other =
      table.usesOf other ++ if some other = binder then [id] else [] := by
  cases binder with
  | none => simp [record, usesOf]
  | some binder => simp [record, usesOf, lookup_addUse]

theorem useCount_record (table : BindingTable) (id : NameId) (binder : Option Binder) :
    (table.record id binder).useCount = table.useCount + 1 := by
  simp [record, useCount]

end BindingTable

end ScopedLambda
