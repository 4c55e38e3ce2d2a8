import Mathlib.Data.List.Nodup
import Mathlib.Data.List.Perm.Basic
import ScopedLambda.Proofs.Walk

/-!
# The numbering of names and functions

A name is numbered when it is read and a function when it is finished, so names are numbered from
left to right and functions from the inside out.

* `LinkedProgram.WellLinked` — no identity is given twice, no name is defined twice, and the table
  holds what the tree shows.

Principal results: `names_build`, `functionsInsideOut_build` — the identities of a derived tree are
consecutive numbers in these two orders; `ProgramDerivation.nodup_names`,
`ProgramDerivation.nodup_functions` — so no two names and no two functions of a program share an
identity; `Cursor.wellLinked_of_parse` — a program that was read and linked is well linked.
-/

set_option autoImplicit false

namespace ScopedLambda

/-! ## Expressions -/

/-- The names in expression position are names, in the same order. -/
theorem Expr.uses_sublist_names (expr : Expr) : expr.uses.Sublist expr.names := by
  induction expr with
  | var name => exact .refl _
  | lam id parameter body span ih => exact ih.cons _
  | app callee argument span ihc iha => exact ihc.append iha

namespace ExprDerivation

theorem names_build (derivation : ExprDerivation) (names functions : Nat) :
    (derivation.build names functions).names.map (·.id.index) =
      List.range' names derivation.nameCount := by
  induction derivation generalizing names functions with
  | name word => rfl
  | function lambda parameter dot body ih =>
    simp [build, Expr.names, nameCount, ih, List.range'_succ]
  | application openParen callee argument closeParen ihc iha =>
    simp [build, Expr.names, nameCount, ihc, iha, List.range'_append_1]

theorem functionsInsideOut_build (derivation : ExprDerivation) (names functions : Nat) :
    (derivation.build names functions).functionsInsideOut.map (·.id.index) =
      List.range' functions derivation.functionCount := by
  induction derivation generalizing names functions with
  | name word => rfl
  | function lambda parameter dot body ih =>
    simp [build, Expr.functionsInsideOut, functionCount, ih, List.range'_concat]
  | application openParen callee argument closeParen ihc iha =>
    simp [build, Expr.functionsInsideOut, functionCount, ihc, iha, List.range'_append_1]

end ExprDerivation

/-! ## Programs -/

namespace Program

theorem uses_sublist_names (program : Program) : program.uses.Sublist program.names := by
  rw [uses, expressions, List.flatMap_append, List.flatMap_map]
  refine List.Sublist.append ?_ ?_
  · induction program.definitions with
    | nil => exact .refl _
    | cons definition rest ih =>
      exact List.Sublist.append (definition.expression.uses_sublist_names.cons _) ih
  · cases program.expression with
    | none => exact .refl _
    | some expression => simpa using expression.uses_sublist_names

theorem functionsInsideOut_perm (program : Program) :
    program.functionsInsideOut.Perm program.functions :=
  List.Perm.flatMap_left _ fun expression _ => expression.functionsInsideOut_perm

end Program

namespace DefinitionDerivation

theorem names_buildAll (derivations : List DefinitionDerivation) (names functions : Nat) :
    ((buildAll names functions derivations).flatMap
        (fun definition => definition.name :: definition.expression.names)).map (·.id.index) =
      List.range' names (nameCounts derivations) := by
  induction derivations generalizing names functions with
  | nil => rfl
  | cons derivation rest ih =>
    have hfirst : List.range' names derivation.nameCount =
        names :: List.range' (names + 1) derivation.expression.nameCount := rfl
    simp only [buildAll, build, List.flatMap_cons, List.map_append, List.map_cons, ih,
      ExprDerivation.names_build, nameCounts, ← List.range'_append_1, hfirst]

theorem functionsInsideOut_buildAll (derivations : List DefinitionDerivation)
    (names functions : Nat) :
    ((buildAll names functions derivations).flatMap
        (·.expression.functionsInsideOut)).map (·.id.index) =
      List.range' functions (functionCounts derivations) := by
  induction derivations generalizing names functions with
  | nil => rfl
  | cons derivation rest ih =>
    simp only [buildAll, build, List.flatMap_cons, List.map_append, ih,
      ExprDerivation.functionsInsideOut_build, functionCounts,
      ← List.range'_append_1]

end DefinitionDerivation

namespace ProgramDerivation

/-- **The names of a program are numbered from left to right, without a gap.** -/
theorem names_build (derivation : ProgramDerivation) :
    derivation.build.names.map (·.id.index) = List.range derivation.nameCount := by
  obtain ⟨definitions, expression⟩ := derivation
  rw [List.range_eq_range', nameCount, ← List.range'_append_1]
  cases expression with
  | none => simp [build, Program.names, DefinitionDerivation.names_buildAll]
  | some expression =>
    simp [build, Program.names, DefinitionDerivation.names_buildAll, ExprDerivation.names_build]

/-- **The functions of a program are numbered from the inside out, without a gap.** -/
theorem functionsInsideOut_build (derivation : ProgramDerivation) :
    derivation.build.functionsInsideOut.map (·.id.index) =
      List.range derivation.functionCount := by
  obtain ⟨definitions, expression⟩ := derivation
  have hdefinitions := DefinitionDerivation.functionsInsideOut_buildAll definitions 0 0
  rw [List.range_eq_range', functionCount, ← List.range'_append_1]
  cases expression with
  | none =>
    simpa [build, Program.functionsInsideOut, Program.expressions, List.flatMap_map]
      using hdefinitions
  | some expression =>
    simp only [build, Program.functionsInsideOut, Program.expressions, List.flatMap_append,
      List.flatMap_map, List.map_append, Option.map_some, Option.toList_some, List.flatMap_cons,
      List.flatMap_nil, List.append_nil, ExprDerivation.functionsInsideOut_build, hdefinitions]
    simp

theorem length_names_build (derivation : ProgramDerivation) :
    derivation.build.names.length = derivation.nameCount := by
  have hlength := congrArg List.length derivation.names_build
  rwa [List.length_map, List.length_range] at hlength

theorem length_functions_build (derivation : ProgramDerivation) :
    derivation.build.functions.length = derivation.functionCount := by
  have hlength := congrArg List.length derivation.functionsInsideOut_build
  rwa [List.length_map, List.length_range, derivation.build.functionsInsideOut_perm.length_eq]
    at hlength

/-- Distinct numbers make distinct identities. -/
theorem nodup_map_of_index {α β : Type} {list : List α} {key : α → β} (index : β → Nat)
    (h : (list.map fun entry => index (key entry)).Nodup) : (list.map key).Nodup := by
  refine List.Nodup.of_map index ?_
  rwa [List.map_map]

theorem nodup_names (derivation : ProgramDerivation) :
    (derivation.build.names.map (·.id)).Nodup := by
  refine nodup_map_of_index (·.index) ?_
  rw [names_build]
  exact List.nodup_range

/-- **No two uses of a program share an identity.** -/
theorem nodup_uses (derivation : ProgramDerivation) :
    (derivation.build.uses.map (·.id)).Nodup :=
  derivation.nodup_names.sublist (derivation.build.uses_sublist_names.map _)

/-- **The uses of a program come in ascending order of their identities.** -/
theorem pairwise_uses (derivation : ProgramDerivation) :
    derivation.build.uses.Pairwise fun first second => first.id.index < second.id.index := by
  have hnames : (derivation.build.names.map (·.id.index)).Pairwise (· < ·) := by
    rw [names_build]
    exact List.pairwise_lt_range
  exact (List.pairwise_map.1 hnames).sublist derivation.build.uses_sublist_names

/-- **No two functions of a program share an identity.** -/
theorem nodup_functions (derivation : ProgramDerivation) :
    (derivation.build.functions.map (·.id)).Nodup := by
  have hperm := derivation.build.functionsInsideOut_perm.map (·.id)
  refine hperm.nodup_iff.1 (nodup_map_of_index (·.index) ?_)
  rw [functionsInsideOut_build]
  exact List.nodup_range

end ProgramDerivation

/-! ## Linked programs -/

/-- No identity is given twice, no name is defined twice, and the table holds what the tree
shows. -/
structure LinkedProgram.WellLinked (program : LinkedProgram) : Prop where
  table_eq : program.table = program.toProgram.table
  nodup_definitions : (program.definitions.map (·.name.text)).Nodup
  nodup_uses : (program.uses.map (·.id)).Nodup
  nodup_functions : (program.functions.map (·.id)).Nodup

/-- In a well linked program the table holds what the walk saw of a use. -/
theorem LinkedProgram.WellLinked.lookup_of_mem {program : LinkedProgram} (h : program.WellLinked)
    {sighting : Sighting} (hmem : sighting ∈ program.sightings) :
    program.table.bindings.lookup sighting.name.id = some sighting.binder := by
  rw [h.table_eq, Program.lookup_bindings_table h.nodup_uses hmem]

/-- **A program that was read and linked is well linked.** -/
theorem Cursor.wellLinked_of_parse {cursor : Cursor} {program : LinkedProgram}
    (h : cursor.parse = .ok program) : program.WellLinked := by
  obtain ⟨derivation, _, _, hnames, rfl⟩ := Cursor.parse_eq_ok_iff.1 h
  refine ⟨rfl, ?_, derivation.nodup_uses, derivation.nodup_functions⟩
  show (derivation.build.definitions.map (·.name.text)).Nodup
  rw [ProgramDerivation.build, DefinitionDerivation.map_name_buildAll]
  exact hnames

end ScopedLambda
