import Mathlib.Data.List.Flatten
import ScopedLambda.Proofs.Relabelling
import ScopedLambda.Proofs.UseLists

/-!
# The order of definitions

Definitions are walked through one by one, and the scope of the program grows with each. Yet every
definition is walked through in an empty scope, and when the trailing expression is reached, all of
them are known. So in another order of the definitions every use refers to what it referred to; a
definition is only known by its new place.

* `Program.Reordered` — the same definitions in another order.
* `Binder.Corresponds` — one function, or one definition at its places in two programs.

Principal results: `Program.Reordered.refers` — the rule does not ask for the order;
`LinkedProgram.WellLinked.usesOf_eq_of_reordered` — what refers to a binder stays in order;
`Program.order_irrelevant` — what the order does to the outcome of linking.
-/

set_option autoImplicit false

namespace ScopedLambda

/-- Lists of which one at most is not empty can be joined in any order. -/
theorem flatMap_eq_of_perm {α β : Type} {f : α → List β} {first second : List α}
    (h : first.Perm second) (hapart : first.Pairwise fun a b => f a = [] ∨ f b = []) :
    first.flatMap f = second.flatMap f := by
  induction h with
  | nil => rfl
  | cons a _ ih => rw [List.flatMap_cons, List.flatMap_cons, ih (List.pairwise_cons.1 hapart).2]
  | swap a b rest =>
    rcases List.rel_of_pairwise_cons hapart List.mem_cons_self with hnil | hnil <;> simp [hnil]
  | trans hfirst _ ih ih' =>
    rw [ih hapart, ih' (hfirst.pairwise hapart fun hsides => hsides.symm)]

/-- The same definitions in another order, and the same trailing expression. -/
structure Program.Reordered (program other : Program) : Prop where
  definitions : program.definitions.Perm other.definitions
  expression : program.expression = other.expression

/-- The same function, or the same definition at its places in two programs. -/
inductive Binder.Corresponds (program other : Program) : Binder → Binder → Prop where
  | function (id : FunctionId) : Corresponds program other (.function id) (.function id)
  | definition {index index' : Nat} {definition : Definition}
    (hindex : program.definitions[index]? = some definition)
    (hindex' : other.definitions[index']? = some definition) :
    Corresponds program other (.definition index) (.definition index')

namespace Binder.Corresponds

variable {program other : Program}

theorem symm {first second : Binder} (h : Corresponds program other first second) :
    Corresponds other program second first := by
  cases h with
  | function id => exact .function id
  | definition hindex hindex' => exact .definition hindex' hindex

/-- Where no definition occurs twice, one binder at most corresponds to a binder. -/
theorem unique (hother : other.definitions.Nodup) {first second third : Binder}
    (h : Corresponds program other first second) (h' : Corresponds program other first third) :
    second = third := by
  cases h with
  | function id =>
    cases h'
    rfl
  | @definition index index' definition hindex hindex' =>
    cases h' with
    | @definition _ index'' definition' hsame hindex'' =>
      obtain rfl : definition = definition' := Option.some.inj (hindex.symm.trans hsame)
      have hlt := (List.getElem?_eq_some_iff.1 hindex').1
      rw [(List.getElem?_inj hlt hother).1 (hindex'.trans hindex''.symm)]

/-- What corresponds refers to corresponding binders alike. -/
theorem eq_some_iff (hprogram : program.definitions.Nodup) (hother : other.definitions.Nodup)
    {first second : Option Binder} (h : Option.Rel (Corresponds program other) first second)
    {binder binder' : Binder} (hbinder : Corresponds program other binder binder') :
    first = some binder ↔ second = some binder' := by
  cases h with
  | none => simp
  | @some first second hsame =>
    rw [Option.some_inj, Option.some_inj]
    constructor
    · rintro rfl
      exact hsame.unique hother hbinder
    · rintro rfl
      exact hsame.symm.unique hprogram hbinder.symm

end Binder.Corresponds

/-! ## The rule -/

namespace Program.Reordered

variable {program other : Program}

theorem expressions (h : program.Reordered other) :
    program.expressions.Perm other.expressions := by
  rw [Program.expressions, Program.expressions, h.expression]
  exact (h.definitions.map _).append_right _

theorem uses (h : program.Reordered other) : program.uses.Perm other.uses :=
  h.expressions.flatMap_right _

theorem functions (h : program.Reordered other) : program.functions.Perm other.functions :=
  h.expressions.flatMap_right _

theorem names (h : program.Reordered other) : program.names.Perm other.names := by
  rw [Program.names, Program.names, h.expression]
  exact (h.definitions.flatMap_right _).append_right _

/-- A root expression is a root of the other program, too, trailing in both or in none. -/
theorem exists_root (h : program.Reordered other) {root : Option Nat} {whole : Expr}
    (hroot : program.root? root = some whole) :
    ∃ root', other.root? root' = program.root? root ∧ (root' = none ↔ root = none) := by
  cases root with
  | none => exact ⟨none, h.expression.symm, Iff.rfl⟩
  | some index =>
    obtain ⟨definition, hindex, rfl⟩ := Option.map_eq_some_iff.1 hroot
    obtain ⟨index', hindex'⟩ := List.mem_iff_getElem?.1
      (h.definitions.mem_iff.1 (List.mem_of_getElem? hindex))
    exact ⟨some index', by rw [root?, root?, hindex, hindex'], by simp⟩

/-- **The rule does not ask for the order of the definitions.** -/
theorem refers (h : program.Reordered other) {root root' : Option Nat}
    (hroots : other.root? root' = program.root? root) (htrailing : root' = none ↔ root = none)
    {path : List Branch} {text : String} {binder : Option Binder}
    (hrefers : program.Refers root path text binder) :
    ∃ binder', Option.Rel (Binder.Corresponds program other) binder binder' ∧
      other.Refers root' path text binder' := by
  cases hrefers with
  | parameter hroot hinnermost =>
    exact ⟨_, .some (.function _), .parameter (hroots.trans hroot) hinnermost⟩
  | definition hroot hunbound hnone hindex hname =>
    obtain ⟨index', hindex'⟩ := List.mem_iff_getElem?.1
      (h.definitions.mem_iff.1 (List.mem_of_getElem? hindex))
    exact ⟨_, .some (.definition hindex hindex'),
      .definition (hroots.trans hroot) hunbound (htrailing.2 hnone) hindex' hname⟩
  | free hroot hunbound hunknown =>
    refine ⟨none, .none, .free (hroots.trans hroot) hunbound ?_⟩
    intro hnone definition hmem
    exact hunknown (htrailing.1 hnone) definition (h.definitions.mem_iff.2 hmem)

end Program.Reordered

/-! ## Shadowings -/

/-- Shadowings follow from the parameters that are visible; definitions play no part. -/
theorem Expr.shadowings_congr {scope other : Scope}
    (h : ∀ text, other.function? text = scope.function? text) (expr : Expr) :
    expr.shadowings other = expr.shadowings scope := by
  have hfunction (text : String) : other.function? (Relabelling.unchanged.text text) =
      (scope.function? text).map Relabelling.unchanged.function := by
    rw [show Relabelling.unchanged.function = id from rfl, Option.map_id]
    exact h text
  have hsame := Expr.shadowings_of_function? Function.injective_id hfunction expr
  have hentry : (fun entry : Shadowing => entry.relabel .unchanged) = id := rfl
  rwa [Expr.relabel_unchanged, hentry, List.map_id] at hsame

/-- **Every root expression has shadowings of its own.** -/
theorem Program.shadowings_eq (program : Program) :
    program.shadowings = program.definitions.flatMap (·.expression.shadowings {}) ++
      program.expression.toList.flatMap (·.shadowings {}) := by
  have htrailing (expr : Expr) : expr.shadowings program.scope = expr.shadowings {} :=
    Expr.shadowings_congr (Scope.function?_defineAll {} 0 program.definitions) expr
  simp only [shadowings, htrailing]

/-! ## Linked programs -/

namespace LinkedProgram.WellLinked

variable {program other : LinkedProgram}

theorem nodup (h : program.WellLinked) : program.definitions.Nodup :=
  List.Nodup.of_map _ h.nodup_definitions

/-- A use in a definition refers to a function in that definition, if to anything. -/
theorem exists_function_of_definition (h : program.WellLinked) {definition : Definition}
    (hmem : definition ∈ program.definitions) {use : Name}
    (huse : use ∈ definition.expression.uses) {binder : Binder}
    (hbinder : program.table.binderOf? use.id = some binder) :
    ∃ function ∈ definition.expression.functions, binder = .function function.id := by
  obtain ⟨index, hindex⟩ := List.mem_iff_getElem?.1 hmem
  obtain ⟨path, hpath⟩ := Expr.mem_uses_iff.1 huse
  have hroot : program.root? (some index) = some definition.expression := by
    simp [Program.root?, hindex]
  cases h.refers_of_binderOf? (Program.at?_eq_some_iff.2 ⟨_, hroot, hpath⟩) hbinder with
  | @parameter whole function hroot' hinnermost =>
    obtain rfl : definition.expression = whole := Option.some.inj (hroot.symm.trans hroot')
    obtain ⟨outer, ⟨hdescend, _⟩, _⟩ := hinnermost
    exact ⟨function, Expr.mem_functions_iff.2 ⟨outer, hdescend⟩, rfl⟩
  | definition _ _ htrailing => cases htrailing

/-- Uses in two definitions never refer to one binder. -/
theorem pairwise_filter_uses (h : program.WellLinked) (binder : Binder) :
    program.definitions.Pairwise fun first second =>
      (first.expression.uses.filter (program.table.binderOf? ·.id == some binder)) = [] ∨
      (second.expression.uses.filter (program.table.binderOf? ·.id == some binder)) = [] := by
  have hids := h.nodup_functions
  rw [Program.functions, List.map_flatMap, List.nodup_flatMap, Program.expressions,
    List.pairwise_append, List.pairwise_map] at hids
  refine hids.2.1.imp_of_mem ?_
  intro first second hfirst hsecond hdisjoint
  by_contra hboth
  rw [not_or] at hboth
  obtain ⟨use, huse⟩ := List.exists_mem_of_ne_nil _ hboth.1
  obtain ⟨use', huse'⟩ := List.exists_mem_of_ne_nil _ hboth.2
  rw [List.mem_filter, beq_iff_eq] at huse huse'
  obtain ⟨function, hfunction, rfl⟩ := h.exists_function_of_definition hfirst huse.1 huse.2
  obtain ⟨function', hfunction', hsame⟩ := h.exists_function_of_definition hsecond huse'.1 huse'.2
  have hid : function.id = function'.id := Binder.function.inj hsame
  exact hdisjoint (List.mem_map_of_mem hfunction) (hid ▸ List.mem_map_of_mem hfunction')

section Reordered

variable (hprogram : program.WellLinked) (hother : other.WellLinked)
  (h : program.toProgram.Reordered other.toProgram)
include hprogram hother h

theorem isUse_eq_of_reordered (id : NameId) : program.table.isUse id = other.table.isUse id := by
  rw [Bool.eq_iff_iff, hprogram.isUse_iff, hother.isUse_iff]
  simp only [h.uses.mem_iff]

/-- **A use refers to what it referred to.** -/
theorem binderOf?_of_reordered (id : NameId) :
    Option.Rel (Binder.Corresponds program.toProgram other.toProgram)
      (program.table.binderOf? id) (other.table.binderOf? id) := by
  by_cases huse : program.table.isUse id = true
  · obtain ⟨use, hmem, rfl⟩ := hprogram.isUse_iff.1 huse
    obtain ⟨root, path, hplace⟩ := Program.mem_uses_iff.1 hmem
    obtain ⟨whole, hroot, hpath⟩ := Program.at?_eq_some_iff.1 hplace
    obtain ⟨root', hroots, htrailing⟩ := h.exists_root hroot
    have hplace' : other.at? root' path = some (.var use) :=
      Program.at?_eq_some_iff.2 ⟨whole, hroots.trans hroot, hpath⟩
    have hrefers := Program.refers_binder?_scopeAt hprogram.nodup_definitions hroot path use.text
    obtain ⟨binder', hsame, hrefers'⟩ := h.refers hroots htrailing hrefers
    rw [BindingTable.binderOf?, BindingTable.binderOf?,
      (hprogram.lookup_eq_some_iff hplace _).2 hrefers,
      (hother.lookup_eq_some_iff hplace' _).2 hrefers']
    exact hsame
  · have huse' : ¬ other.table.isUse id = true := by
      rwa [← isUse_eq_of_reordered hprogram hother h]
    have hnone {table : BindingTable} (hnot : ¬ table.isUse id = true) :
        table.binderOf? id = none :=
      Option.eq_none_iff_forall_ne_some.2 fun _ hbinder =>
        hnot (BindingTable.isUse_of_binderOf? hbinder)
    rw [hnone huse, hnone huse']
    exact .none

theorem isFree_eq_of_reordered (id : NameId) :
    program.table.isFree id = other.table.isFree id := by
  have hnone {first second : Option Binder}
      (hrel : Option.Rel (Binder.Corresponds program.toProgram other.toProgram) first second) :
      first = none ↔ second = none := by
    cases hrel <;> simp
  rw [Bool.eq_iff_iff, BindingTable.isFree_iff, BindingTable.isFree_iff,
    hnone (binderOf?_of_reordered hprogram hother h id), isUse_eq_of_reordered hprogram hother h]

/-- **The list of a binder stays as it is.** All uses in it stand in one root expression. -/
theorem usesOf_eq_of_reordered {binder binder' : Binder}
    (hbinder : Binder.Corresponds program.toProgram other.toProgram binder binder') :
    program.table.usesOf binder = other.table.usesOf binder' := by
  have hsame (use : Name) : (program.table.binderOf? use.id == some binder) =
      (other.table.binderOf? use.id == some binder') := by
    rw [Bool.eq_iff_iff, beq_iff_eq, beq_iff_eq]
    exact Binder.Corresponds.eq_some_iff hprogram.nodup hother.nodup
      (binderOf?_of_reordered hprogram hother h use.id) hbinder
  rw [hprogram.usesOf_eq, hother.usesOf_eq]
  congr 1
  simp only [← hsame, Program.uses, Program.expressions, List.flatMap_append, List.flatMap_map,
    List.filter_append, List.filter_flatMap, h.expression]
  congr 1
  -- At most one definition has uses that refer to the binder, so they stay together.
  exact flatMap_eq_of_perm h.definitions (hprogram.pairwise_filter_uses binder)

end Reordered

end LinkedProgram.WellLinked

/-- A program that is linked is well linked, if no two names and no two functions share an
identity. -/
theorem Program.wellLinked_of_analyse {program : Program} {linked : LinkedProgram}
    (h : program.analyse.outcome = .ok linked) (hnames : (program.names.map (·.id)).Nodup)
    (hfunctions : (program.functions.map (·.id)).Nodup) :
    linked.WellLinked ∧ linked.toProgram = program := by
  obtain ⟨hdistinct, rfl⟩ := Program.outcome_analyse_eq_ok_iff.1 h
  exact ⟨⟨rfl, hdistinct, hnames.sublist (program.uses_sublist_names.map _), hfunctions⟩, rfl⟩

/-- **The order of definitions does not matter to linking.** Definitions in another order are linked
exactly if they are linked as they stand. Then the two tables know the same uses, the same of them
are free, and the others refer to the same functions and definitions; what refers to one of these is
listed in the same order. The shadowings are those of the definitions, block by block as these are
ordered, and then those of the trailing expression; no block depends on what stands around it. -/
theorem Program.order_irrelevant {program other : Program} (h : program.Reordered other)
    (hnames : (program.names.map (·.id)).Nodup)
    (hfunctions : (program.functions.map (·.id)).Nodup) :
    ((∃ linked, program.analyse.outcome = .ok linked) ↔
      ∃ linked, other.analyse.outcome = .ok linked) ∧
    ∀ linked linked', program.analyse.outcome = .ok linked → other.analyse.outcome = .ok linked' →
      (∀ id, linked.table.isUse id = linked'.table.isUse id ∧
        linked.table.isFree id = linked'.table.isFree id ∧
        Option.Rel (Binder.Corresponds program other)
          (linked.table.binderOf? id) (linked'.table.binderOf? id)) ∧
      (∀ binder binder', Binder.Corresponds program other binder binder' →
        linked.table.usesOf binder = linked'.table.usesOf binder') ∧
      linked.table.shadowings.Perm linked'.table.shadowings ∧
      linked.table.shadowings = program.definitions.flatMap (·.expression.shadowings {}) ++
        program.expression.toList.flatMap (·.shadowings {}) ∧
      linked'.table.shadowings = other.definitions.flatMap (·.expression.shadowings {}) ++
        program.expression.toList.flatMap (·.shadowings {}) := by
  have hdistinct := (h.definitions.map (·.name.text)).nodup_iff
  constructor
  · simp only [Program.outcome_analyse_eq_ok_iff, exists_and_left, exists_eq, and_true]
    exact hdistinct
  · intro linked linked' hlinked hlinked'
    obtain ⟨hwell, rfl⟩ := Program.wellLinked_of_analyse hlinked hnames hfunctions
    obtain ⟨hwell', rfl⟩ := Program.wellLinked_of_analyse hlinked'
      ((h.names.map _).nodup_iff.1 hnames) ((h.functions.map _).nodup_iff.1 hfunctions)
    have hshadowings : linked.table.shadowings = _ :=
      (congrArg BindingTable.shadowings hwell.table_eq).trans linked.toProgram.shadowings_eq
    have hshadowings' : linked'.table.shadowings = _ :=
      (congrArg BindingTable.shadowings hwell'.table_eq).trans linked'.toProgram.shadowings_eq
    rw [← h.expression] at hshadowings'
    refine ⟨fun id => ⟨?_, ?_, ?_⟩, fun binder binder' hbinder => ?_, ?_, hshadowings,
      hshadowings'⟩
    · exact LinkedProgram.WellLinked.isUse_eq_of_reordered hwell hwell' h id
    · exact LinkedProgram.WellLinked.isFree_eq_of_reordered hwell hwell' h id
    · exact LinkedProgram.WellLinked.binderOf?_of_reordered hwell hwell' h id
    · exact LinkedProgram.WellLinked.usesOf_eq_of_reordered hwell hwell' h hbinder
    · rw [hshadowings, hshadowings']
      exact (h.definitions.flatMap_right _).append_right _

/-- Two definitions, each with a shadowing, in both orders. The `f` of the trailing expression
refers to the first definition and then to the second one, and the shadowings change places. -/
theorem Program.order_irrelevant_of_two_definitions :
    ∃ (program other : Program) (linked linked' : LinkedProgram),
      (program.names.map (·.id)).Nodup ∧ (program.functions.map (·.id)).Nodup ∧
      program.definitions.map (·.name.text) = ["f", "g"] ∧
      other.definitions.map (·.name.text) = ["g", "f"] ∧
      program.analyse.outcome = .ok linked ∧ other.analyse.outcome = .ok linked' ∧
      linked.table.usesOf (.definition 0) = [⟨8⟩] ∧ linked'.table.usesOf (.definition 1) = [⟨8⟩] ∧
      linked.table.shadowings ≠ linked'.table.shadowings ∧
      linked.table.shadowings.Perm linked'.table.shadowings := by
  let f : Definition :=
    ⟨⟨⟨0⟩, "f", ⟨4, 5⟩⟩, .lam ⟨1⟩ ⟨⟨1⟩, "x", ⟨10, 11⟩⟩
      (.lam ⟨0⟩ ⟨⟨2⟩, "x", ⟨14, 15⟩⟩ (.var ⟨⟨3⟩, "x", ⟨16, 17⟩⟩) ⟨12, 17⟩) ⟨8, 17⟩, ⟨0, 17⟩⟩
  let g : Definition :=
    ⟨⟨⟨4⟩, "g", ⟨22, 23⟩⟩, .lam ⟨3⟩ ⟨⟨5⟩, "y", ⟨28, 29⟩⟩
      (.lam ⟨2⟩ ⟨⟨6⟩, "y", ⟨32, 33⟩⟩ (.var ⟨⟨7⟩, "f", ⟨34, 35⟩⟩) ⟨30, 35⟩) ⟨26, 35⟩, ⟨18, 35⟩⟩
  let expression : Expr :=
    .app (.var ⟨⟨8⟩, "f", ⟨37, 38⟩⟩) (.var ⟨⟨9⟩, "g", ⟨39, 40⟩⟩) ⟨36, 41⟩
  let program : Program := ⟨[f, g], some expression⟩
  let other : Program := ⟨[g, f], some expression⟩
  have hnames : (program.names.map (·.id)).Nodup := by decide
  have hfunctions : (program.functions.map (·.id)).Nodup := by decide
  have hreordered : program.Reordered other := ⟨.swap g f [], rfl⟩
  have hlinked : program.analyse.outcome = .ok ⟨program, program.table⟩ :=
    Program.outcome_analyse_eq_ok_iff.2 ⟨by decide, rfl⟩
  obtain ⟨⟨linked', hlinked'⟩, hagree⟩ :=
    (Program.order_irrelevant hreordered hnames hfunctions).imp_left fun h => h.1 ⟨_, hlinked⟩
  obtain ⟨_, huses, hperm, hfirst, hsecond⟩ := hagree _ _ hlinked hlinked'
  have hsame := huses (.definition 0) (.definition 1)
    (.definition (rfl : program.definitions[0]? = some f) (rfl : other.definitions[1]? = some f))
  refine ⟨program, other, _, linked', hnames, hfunctions, rfl, rfl, hlinked, hlinked', rfl,
    hsame.symm, ?_, hperm⟩
  rw [hfirst, hsecond]
  decide

end ScopedLambda
