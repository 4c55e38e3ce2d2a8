import Mathlib.Data.List.Induction
import ScopedLambda.Analysis
import ScopedLambda.Proofs.Reading

/-!
# What a walk finds

A walk changes its state step by step: scopes are opened and closed, and what is found is entered
in the table. Here the same findings are read off the tree alone, from the scope around it.

* `Expr.sightings`, `Expr.shadowings` — the uses and the shadowings of an expression in a scope.
* `Program.sightings`, `Program.shadowings` — those of a program: every definition stands in an
  empty scope, the trailing expression in the scope of all definitions.
* `Linking.observe` — a walk that has found some more and is where it was.
* `Program.table` — the table in which exactly the findings of a program are entered.

Principal results: `linkExpr_eq_observe` — a walk over an expression finds what the tree shows;
`link_eq_of_nodup`, `link_eq_of_repeated` — the walk over a program finds all of it, unless a name
is defined again; `analyse_eq_of_nodup`, `analyse_eq_of_repeated` — what its journal then tells;
`Cursor.parse_eq_ok_iff` — which tokens make a linked program, and which one.
-/

set_option autoImplicit false

namespace ScopedLambda

/-! ## Findings of a tree -/

namespace Expr

/-- The uses of an expression that stands in a scope, inside `depth` scopes. -/
def sightings (scope : Scope) (depth : Nat) : Expr → List Sighting
  | .var name => [⟨name, scope.binder? name.text, depth⟩]
  | .lam id parameter body _ => body.sightings (scope.bind parameter.text id) (depth + 1)
  | .app callee argument _ =>
    callee.sightings scope (depth + 1) ++ argument.sightings scope (depth + 1)

/-- The shadowing by a function's parameter, if the parameter is visible in the scope already. -/
def shadowingOf (scope : Scope) (id : FunctionId) (parameter : Name) : List Shadowing :=
  match scope.function? parameter.text with
  | none => []
  | some shadowed => [⟨parameter.text, shadowed, id, parameter.span⟩]

/-- The shadowings in an expression that stands in a scope. -/
def shadowings (scope : Scope) : Expr → List Shadowing
  | .var _ => []
  | .lam id parameter body _ =>
    shadowingOf scope id parameter ++ body.shadowings (scope.bind parameter.text id)
  | .app callee argument _ => callee.shadowings scope ++ argument.shadowings scope

/-- The uses that are seen are the names in expression position. -/
theorem map_name_sightings (scope : Scope) (depth : Nat) (expr : Expr) :
    (expr.sightings scope depth).map (·.name) = expr.uses := by
  induction expr generalizing scope depth with
  | var name => rfl
  | lam id parameter body span ih => exact ih _ _
  | app callee argument span ihc iha => simp [sightings, uses, ihc, iha]

end Expr

/-- The scope with definitions added, the first of which has the index `index`. -/
def Scope.defineAll (scope : Scope) (index : Nat) : List Definition → Scope
  | [] => scope
  | definition :: rest => (scope.define definition.name.text index).defineAll (index + 1) rest

namespace Program

/-- The scope of the trailing expression: all definitions, and no parameter. -/
def scope (program : Program) : Scope := Scope.defineAll {} 0 program.definitions

/-- The uses of a program. -/
def sightings (program : Program) : List Sighting :=
  program.definitions.flatMap (·.expression.sightings {} 2) ++
    program.expression.toList.flatMap (·.sightings program.scope 1)

/-- The shadowings of a program. -/
def shadowings (program : Program) : List Shadowing :=
  program.definitions.flatMap (·.expression.shadowings {}) ++
    program.expression.toList.flatMap (·.shadowings program.scope)

theorem map_name_sightings (program : Program) :
    program.sightings.map (·.name) = program.uses := by
  simp [sightings, uses, expressions, List.map_flatMap, List.flatMap_map,
    Expr.map_name_sightings]

end Program

/-! ## Entering findings in a table -/

namespace BindingTable

/-- The table with some more uses. -/
def recordAll (table : BindingTable) (sightings : List Sighting) : BindingTable :=
  sightings.foldl (fun table sighting => table.record sighting.name.id sighting.binder) table

theorem bindings_recordAll (table : BindingTable) (sightings : List Sighting) :
    (table.recordAll sightings).bindings =
      table.bindings ++ sightings.map (fun sighting => (sighting.name.id, sighting.binder)) := by
  induction sightings generalizing table with
  | nil => simp [recordAll]
  | cons sighting rest ih =>
    have hrest := ih (table.record sighting.name.id sighting.binder)
    simpa [recordAll, record] using hrest

/-- An entry is found under its key, if no other entry has that key. -/
theorem lookup_of_mem {bindings : List (NameId × Option Binder)} {id : NameId}
    {binder : Option Binder} (hids : (bindings.map (·.1)).Nodup) (h : (id, binder) ∈ bindings) :
    bindings.lookup id = some binder := by
  induction bindings with
  | nil => simp at h
  | cons entry rest ih =>
    obtain ⟨other, answer⟩ := entry
    simp only [List.map_cons, List.nodup_cons] at hids
    rw [lookup_cons_eq_ite]
    rcases List.mem_cons.1 h with heq | hmem
    · cases heq
      rw [if_pos rfl]
    · have hne : id ≠ other := fun heq =>
        hids.1 (heq ▸ List.mem_map.2 ⟨(id, binder), hmem, rfl⟩)
      rw [if_neg hne, ih hids.2 hmem]

/-- Uses are entered without a look at the shadowings. -/
theorem recordAll_with_shadowings (table : BindingTable) (shadowings : List Shadowing)
    (sightings : List Sighting) :
    ({ table with shadowings } : BindingTable).recordAll sightings =
      { table.recordAll sightings with shadowings } := by
  induction sightings generalizing table with
  | nil => rfl
  | cons sighting rest ih => exact ih (table.record sighting.name.id sighting.binder)

end BindingTable

/-- The table of a program: its uses and its shadowings. -/
def Program.table (program : Program) : BindingTable :=
  { ({} : BindingTable).recordAll program.sightings with shadowings := program.shadowings }

theorem Program.bindings_table (program : Program) :
    program.table.bindings =
      program.sightings.map fun sighting => (sighting.name.id, sighting.binder) := by
  simp [table, BindingTable.bindings_recordAll]

theorem Program.useCount_table (program : Program) :
    program.table.useCount = program.sightings.length := by
  rw [BindingTable.useCount, bindings_table, List.length_map]

/-- **What a use refers to is found under its identity, if no other use has it.** -/
theorem Program.lookup_bindings_table {program : Program} {sighting : Sighting}
    (hids : (program.uses.map (·.id)).Nodup) (h : sighting ∈ program.sightings) :
    program.table.bindings.lookup sighting.name.id = some sighting.binder := by
  rw [← program.map_name_sightings, List.map_map] at hids
  rw [bindings_table]
  refine BindingTable.lookup_of_mem ?_ (List.mem_map.2 ⟨sighting, h, rfl⟩)
  rwa [List.map_map]

/-! ## The walk over an expression -/

namespace Linking

/-- The walk with some more uses and shadowings found, in the scopes where it was. -/
def observe (linking : Linking) (sightings : List Sighting) (shadowings : List Shadowing) :
    Linking where
  scopes := linking.scopes
  table :=
    { linking.table.recordAll sightings with
      shadowings := linking.table.shadowings ++ shadowings }
  sightings := linking.sightings ++ sightings

@[simp] theorem scopes_observe (linking : Linking) (sightings : List Sighting)
    (shadowings : List Shadowing) :
    (linking.observe sightings shadowings).scopes = linking.scopes := rfl

@[simp] theorem current_observe (linking : Linking) (sightings : List Sighting)
    (shadowings : List Shadowing) :
    (linking.observe sightings shadowings).current = linking.current := rfl

@[simp] theorem depth_observe (linking : Linking) (sightings : List Sighting)
    (shadowings : List Shadowing) :
    (linking.observe sightings shadowings).depth = linking.depth := rfl

@[simp] theorem current_enter (linking : Linking) (scope : Scope) :
    (linking.enter scope).current = scope := rfl

@[simp] theorem depth_enter (linking : Linking) (scope : Scope) :
    (linking.enter scope).depth = linking.depth + 1 := rfl

/-- Findings made inside a scope stay when the scope is closed. -/
@[simp] theorem leave_observe_enter (linking : Linking) (scope : Scope)
    (sightings : List Sighting) (shadowings : List Shadowing) :
    ((linking.enter scope).observe sightings shadowings).leave =
      linking.observe sightings shadowings := rfl

theorem observe_nil (linking : Linking) : linking.observe [] [] = linking := by
  simp [observe, BindingTable.recordAll]

theorem observe_observe (linking : Linking) (first second : List Sighting)
    (shadowings shadowings' : List Shadowing) :
    (linking.observe first shadowings).observe second shadowings' =
      linking.observe (first ++ second) (shadowings ++ shadowings') := by
  simp only [observe, BindingTable.recordAll_with_shadowings, List.append_assoc]
  simp only [BindingTable.recordAll, List.foldl_append]

theorem linkName_eq_observe (linking : Linking) (name : Name) :
    linking.linkName name =
      linking.observe [⟨name, linking.current.binder? name.text, linking.depth⟩] [] := by
  simp [linkName, observe, BindingTable.recordAll, BindingTable.record]

theorem noteParameter_eq_observe (linking : Linking) (id : FunctionId) (parameter : Name) :
    linking.noteParameter id parameter =
      linking.observe [] (Expr.shadowingOf linking.current id parameter) := by
  unfold noteParameter Expr.shadowingOf
  cases linking.current.function? parameter.text with
  | none => exact linking.observe_nil.symm
  | some shadowed =>
    simp [observe, BindingTable.recordAll, BindingTable.recordShadowing]

/-- **The walk over an expression finds what the expression shows in the innermost scope.** -/
theorem linkExpr_eq_observe (linking : Linking) (expr : Expr) :
    linking.linkExpr expr =
      linking.observe (expr.sightings linking.current linking.depth)
        (expr.shadowings linking.current) := by
  induction expr generalizing linking with
  | var name => exact linking.linkName_eq_observe name
  | lam id parameter body span ih =>
    simp only [linkExpr, ih, noteParameter_eq_observe, current_enter, depth_enter, depth_observe,
      leave_observe_enter, observe_observe, List.nil_append]
    rfl
  | app callee argument span ihc iha =>
    simp only [linkExpr, ihc, iha, current_enter, depth_enter, current_observe, depth_observe,
      observe_observe, leave_observe_enter]
    rfl

end Linking

/-! ## The scope of the definitions -/

namespace Scope

theorem defineAll_append (scope : Scope) (index : Nat) (first second : List Definition) :
    scope.defineAll index (first ++ second) =
      (scope.defineAll index first).defineAll (index + first.length) second := by
  induction first generalizing scope index with
  | nil => rfl
  | cons definition rest ih =>
    rw [List.cons_append, defineAll, ih, List.length_cons, Nat.add_assoc, Nat.add_comm 1]
    rfl

theorem function?_defineAll (scope : Scope) (index : Nat) (definitions : List Definition)
    (text : String) :
    (scope.defineAll index definitions).function? text = scope.function? text := by
  induction definitions generalizing scope index with
  | nil => rfl
  | cons definition rest ih => rw [defineAll, ih, function?_define]

/-- A text that no added definition has means what it meant before. -/
theorem definition?_defineAll_of_notMem {scope : Scope} {index : Nat}
    {definitions : List Definition} {text : String}
    (h : text ∉ definitions.map (·.name.text)) :
    (scope.defineAll index definitions).definition? text = scope.definition? text := by
  induction definitions generalizing scope index with
  | nil => rfl
  | cons definition rest ih =>
    simp only [List.map_cons, List.mem_cons, not_or] at h
    rw [defineAll, ih h.2, definition?_define, if_neg h.1]

/-- Among definitions of distinct names each is known by its own index. -/
theorem definition?_defineAll {scope : Scope} {index position : Nat}
    {definitions : List Definition} {definition : Definition}
    (hnames : (definitions.map (·.name.text)).Nodup)
    (h : definitions[position]? = some definition) :
    (scope.defineAll index definitions).definition? definition.name.text =
      some (index + position) := by
  induction definitions generalizing scope index position with
  | nil => simp at h
  | cons first rest ih =>
    simp only [List.map_cons, List.nodup_cons] at hnames
    cases position with
    | zero =>
      obtain rfl : first = definition := by simpa using h
      rw [defineAll, definition?_defineAll_of_notMem hnames.1, definition?_define, if_pos rfl]
      rfl
    | succ position =>
      rw [defineAll, ih hnames.2 (by simpa using h)]
      congr 1
      omega

end Scope

/-! ## The walk over definitions -/

namespace Linking

/-- The walk as it is, but in other scopes. -/
def inScopes (linking : Linking) (scopes : List Scope) : Linking := { linking with scopes }

@[simp] theorem inScopes_inScopes (linking : Linking) (first second : List Scope) :
    (linking.inScopes first).inScopes second = linking.inScopes second := rfl

@[simp] theorem observe_inScopes (linking : Linking) (scopes : List Scope)
    (sightings : List Sighting) (shadowings : List Shadowing) :
    (linking.inScopes scopes).observe sightings shadowings =
      (linking.observe sightings shadowings).inScopes scopes := rfl

theorem linkDefinition_eq {linking : Linking} {scope : Scope} (h : linking.scopes = [scope])
    (index : Nat) (definition : Definition) :
    linking.linkDefinition index definition =
      (linking.observe (definition.expression.sightings {} 2)
        (definition.expression.shadowings {})).inScopes
        [scope.define definition.name.text index] := by
  have hdepth : linking.depth = 1 := by simp [depth, h]
  simp only [linkDefinition, linkExpr_eq_observe, current_enter, depth_enter, hdepth,
    leave_observe_enter]
  simp [define, inScopes, observe, h]

/-- **Definitions of names that are new are all walked through and made known.** -/
theorem linkDefinitions_append {linking : Linking} {scope : Scope}
    (hscopes : linking.scopes = [scope]) (index : Nat) {fresh : List Definition}
    (rest : List Definition) (hnames : (fresh.map (·.name.text)).Nodup)
    (hnew : ∀ definition ∈ fresh, scope.definition? definition.name.text = none) :
    linking.linkDefinitions index (fresh ++ rest) =
      ((linking.observe (fresh.flatMap (·.expression.sightings {} 2))
        (fresh.flatMap (·.expression.shadowings {}))).inScopes
        [scope.defineAll index fresh]).linkDefinitions (index + fresh.length) rest := by
  induction fresh generalizing linking scope index with
  | nil =>
    have hsame : (linking.observe [] []).inScopes [scope] = linking := by
      rw [observe_nil, inScopes, ← hscopes]
    simp [Scope.defineAll, hsame]
  | cons definition fresh ih =>
    simp only [List.map_cons, List.nodup_cons] at hnames
    have hcurrent : linking.current = scope := by simp [current, hscopes]
    have hunknown : scope.definition? definition.name.text = none := hnew definition (by simp)
    rw [List.cons_append, linkDefinitions, hcurrent, hunknown]
    have hnew' : ∀ other ∈ fresh,
        (scope.define definition.name.text index).definition? other.name.text = none := by
      intro other hother
      have hne : other.name.text ≠ definition.name.text := fun heq =>
        hnames.1 (heq ▸ List.mem_map.2 ⟨other, hother, rfl⟩)
      rw [Scope.definition?_define, if_neg hne]
      exact hnew other (by simp [hother])
    have hscopes' : (linking.linkDefinition index definition).scopes =
        [scope.define definition.name.text index] := by
      rw [linkDefinition_eq hscopes]
      rfl
    rw [Option.isSome_none, if_neg Bool.false_ne_true, ih hscopes' (index + 1) hnames.2 hnew',
      linkDefinition_eq hscopes, observe_inScopes, observe_observe, inScopes_inScopes,
      List.length_cons, Nat.add_assoc, Nat.add_comm 1]
    rfl

/-- A definition of a name that is known already ends the walk. -/
theorem linkDefinitions_of_known {linking : Linking} {index : Nat} {definition : Definition}
    (rest : List Definition)
    (h : (linking.current.definition? definition.name.text).isSome = true) :
    linking.linkDefinitions index (definition :: rest) = (linking, some definition.name) := by
  rw [linkDefinitions, if_pos h]

end Linking

/-! ## The walk over a program -/

namespace Program

/-- The walk when the first `fresh` definitions of a program, all of different names, are known. -/
theorem linkDefinitions_opened {fresh : List Definition} (rest : List Definition)
    (hnames : (fresh.map (·.name.text)).Nodup) :
    ({ scopes := [{}] } : Linking).linkDefinitions 0 (fresh ++ rest) =
      ((({} : Linking).observe (fresh.flatMap (·.expression.sightings {} 2))
        (fresh.flatMap (·.expression.shadowings {}))).inScopes
        [Scope.defineAll {} 0 fresh]).linkDefinitions fresh.length rest := by
  have hopened : ({ scopes := [{}] } : Linking).scopes = [{}] := rfl
  have h := Linking.linkDefinitions_append hopened 0 rest hnames (fun _ _ => rfl)
  rw [Nat.zero_add] at h
  exact h

/-- **If all definitions have different names, the walk finds what the program shows.** -/
theorem link_eq_of_nodup {program : Program}
    (h : (program.definitions.map (·.name.text)).Nodup) :
    program.link = (({} : Linking).observe program.sightings program.shadowings, none) := by
  have hwalk := linkDefinitions_opened [] h
  rw [List.append_nil] at hwalk
  simp only [link, hwalk, Linking.linkDefinitions, sightings, shadowings]
  cases program.expression with
  | none => simp [Linking.inScopes, Linking.leave, Linking.observe]
  | some expression =>
    rw [Option.elim_some, Linking.linkExpr_eq_observe, Linking.observe_inScopes,
      Linking.observe_observe]
    simp [Linking.inScopes, Linking.leave, Linking.observe, Linking.current, Linking.depth, scope]

/-- **If a definition has the name of an earlier one, the walk ends at the first such.** -/
theorem link_eq_of_repeated {program : Program} {fresh rest : List Definition}
    {definition : Definition} (hdefinitions : program.definitions = fresh ++ definition :: rest)
    (hnames : (fresh.map (·.name.text)).Nodup)
    (hrepeated : definition.name.text ∈ fresh.map (·.name.text)) :
    program.link =
      ((({} : Linking).observe (fresh.flatMap (·.expression.sightings {} 2))
        (fresh.flatMap (·.expression.shadowings {}))).inScopes [Scope.defineAll {} 0 fresh],
        some definition.name) := by
  obtain ⟨earlier, hearlier, htext⟩ := List.mem_map.1 hrepeated
  obtain ⟨position, hposition⟩ := List.mem_iff_getElem?.1 hearlier
  have hknown : (Scope.defineAll {} 0 fresh).definition? definition.name.text =
      some (0 + position) := by
    rw [← htext, Scope.definition?_defineAll hnames hposition]
  simp only [link, hdefinitions, linkDefinitions_opened (definition :: rest) hnames]
  rw [Linking.linkDefinitions_of_known]
  simp [Linking.inScopes, Linking.current, hknown]

/-- If names are repeated at all behind definitions of different names, there is a first definition
that repeats an earlier name. -/
theorem exists_first_repeated {known definitions : List Definition}
    (hknown : (known.map (·.name.text)).Nodup)
    (h : ¬ ((known ++ definitions).map (·.name.text)).Nodup) :
    ∃ fresh definition rest, definitions = fresh ++ definition :: rest ∧
      ((known ++ fresh).map (·.name.text)).Nodup ∧
      definition.name.text ∈ (known ++ fresh).map (·.name.text) := by
  induction definitions using List.reverseRecOn with
  | nil => simp [hknown] at h
  | append_singleton definitions last ih =>
    by_cases hnames : ((known ++ definitions).map (·.name.text)).Nodup
    · refine ⟨definitions, last, [], rfl, hnames, ?_⟩
      by_contra hnew
      refine h ?_
      rw [← List.append_assoc, List.map_append, List.nodup_append]
      refine ⟨hnames, by simp, ?_⟩
      rintro text hmem _ hlast rfl
      obtain rfl : text = last.name.text := by simpa using hlast
      exact hnew hmem
    · obtain ⟨fresh, definition, rest, rfl, hfresh, hmem⟩ := ih hnames
      exact ⟨fresh, definition, rest ++ [last], by simp, hfresh, hmem⟩

/-! ## Journals of programs -/

/-- **If all definitions have different names, all that is found is entered in the journal.** -/
theorem analyse_eq_of_nodup {program : Program}
    (h : (program.definitions.map (·.name.text)).Nodup) :
    program.analyse =
      ⟨program.sightings.map .sighted ++ shadowingEntries program.shadowings ++
          [.linked program.sightings.length program.definitions.length,
            .completed program.definitions.length],
        .ok ⟨program, program.table⟩⟩ := by
  rw [← useCount_table, analyse, link_eq_of_nodup h]
  simp [Linking.observe, table]

/-- **If a definition has the name of an earlier one, the uses before the first such are entered in
the journal, and it is refused.** -/
theorem analyse_eq_of_repeated {program : Program} {fresh rest : List Definition}
    {definition : Definition} (hdefinitions : program.definitions = fresh ++ definition :: rest)
    (hnames : (fresh.map (·.name.text)).Nodup)
    (hrepeated : definition.name.text ∈ fresh.map (·.name.text)) :
    program.analyse =
      ⟨(fresh.flatMap (·.expression.sightings {} 2)).map .sighted,
        .error (.duplicateDefinition definition.name.text definition.name.span)⟩ := by
  rw [analyse, link_eq_of_repeated hdefinitions hnames hrepeated]
  simp [Linking.observe, Linking.inScopes]

theorem outcome_analyse_of_repeated {program : Program} {fresh rest : List Definition}
    {definition : Definition} (hdefinitions : program.definitions = fresh ++ definition :: rest)
    (hnames : (fresh.map (·.name.text)).Nodup)
    (hrepeated : definition.name.text ∈ fresh.map (·.name.text)) :
    program.analyse.outcome =
      .error (.duplicateDefinition definition.name.text definition.name.span) := by
  rw [analyse_eq_of_repeated hdefinitions hnames hrepeated]

/-! ## Linked programs -/

/-- **A program is linked exactly if its definitions have different names.** -/
theorem outcome_analyse_eq_ok_iff {program : Program} {linked : LinkedProgram} :
    program.analyse.outcome = .ok linked ↔
      (program.definitions.map (·.name.text)).Nodup ∧ linked = ⟨program, program.table⟩ := by
  by_cases h : (program.definitions.map (·.name.text)).Nodup
  · rw [analyse_eq_of_nodup h]
    simp [h, eq_comm]
  · obtain ⟨fresh, definition, rest, hdefinitions, hnames, hrepeated⟩ :=
      @exists_first_repeated [] program.definitions List.nodup_nil h
    rw [List.nil_append] at hnames hrepeated
    simp [outcome_analyse_of_repeated hdefinitions hnames hrepeated, h]

end Program

/-- **Tokens make a linked program exactly if they are a sentence whose expressions are not too
high and whose definitions have different names.** -/
theorem Cursor.parse_eq_ok_iff {cursor : Cursor} {linked : LinkedProgram} :
    cursor.parse = .ok linked ↔
      ∃ derivation : ProgramDerivation,
        derivation.tokens = cursor.rest ∧
        (∀ expression ∈ derivation.expressions, expression.height ≤ maxNesting) ∧
        (derivation.definitions.map (·.name.lexeme)).Nodup ∧
        linked = ⟨derivation.build, derivation.build.table⟩ := by
  have hnames (derivation : ProgramDerivation) :
      derivation.build.definitions.map (·.name.text) =
        derivation.definitions.map (·.name.lexeme) :=
    DefinitionDerivation.map_name_buildAll _ _ _
  unfold Cursor.parse Cursor.analyse
  constructor
  · intro h
    split at h
    · cases h
    · rename_i program last hread
      obtain ⟨derivation, htokens, hheights, rfl, _⟩ := Cursor.readProgram_ok_iff.1 hread
      obtain ⟨hdistinct, rfl⟩ := Program.outcome_analyse_eq_ok_iff.1 h
      exact ⟨derivation, htokens, hheights, hnames derivation ▸ hdistinct, rfl⟩
  · rintro ⟨derivation, htokens, hheights, hdistinct, rfl⟩
    have hread := Cursor.readProgram_ok_iff.2 ⟨derivation, htokens, hheights, rfl, rfl⟩
    rw [hread]
    exact Program.outcome_analyse_eq_ok_iff.2 ⟨(hnames derivation).symm ▸ hdistinct, rfl⟩

end ScopedLambda
