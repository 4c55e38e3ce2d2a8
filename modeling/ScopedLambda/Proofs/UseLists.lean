import Mathlib
import ScopedLambda.Proofs.LexicalScoping

/-!
# The two directions of the table

Every use is entered twice: under its own identity, with its binder, and under its binder, with its
identity. Identities are new for every name and are met in ascending order, so the two directions
never disagree.

* `Program.declarations` — the names that introduce something: those of definitions and parameters.
* `Program.allBinders` — all definitions and all functions of a program.

Principal results: `Program.names_perm` — every name is a use or a declaration;
`LinkedProgram.WellLinked.usesOf_eq` — the list of a binder holds the uses that refer to it, in
order; `length_filter_isSome_eq_sum` — values are counted by what they are;
`Cursor.uses_indexed_both_ways` — both directions, and what they count.
-/

set_option autoImplicit false

namespace ScopedLambda

/-! ## Uses and declarations -/

/-- Every name of an expression is a use or a parameter. -/
theorem Expr.names_perm (expr : Expr) :
    expr.names.Perm (expr.functions.map (·.parameter) ++ expr.uses) := by
  induction expr with
  | var name => exact .refl _
  | lam id parameter body span ih => exact ih.cons parameter
  | app callee argument span ihc iha =>
    refine (ihc.append iha).trans ?_
    rw [functions, uses, List.map_append, List.append_assoc, List.append_assoc]
    exact List.perm_append_comm_assoc _ _ _ |>.append_left _

namespace Program

/-- The names that introduce something. -/
def declarations (program : Program) : List Name :=
  program.definitions.map (·.name) ++ program.functions.map (·.parameter)

/-- **Every name of a program is a use or a declaration.** -/
theorem names_perm (program : Program) :
    program.names.Perm (program.declarations ++ program.uses) := by
  have hdefinitions : (program.definitions.flatMap fun definition =>
      definition.name :: definition.expression.names).Perm
        (program.definitions.map (·.name) ++
          program.definitions.flatMap (·.expression.names)) :=
    (List.map_append_flatMap_perm _ _ _).symm
  have hexpressions : (program.expressions.flatMap (·.names)).Perm
      (program.functions.map (·.parameter) ++ program.uses) := by
    refine (List.Perm.flatMap_left _ fun expr _ => expr.names_perm).trans ?_
    rw [functions, List.map_flatMap]
    exact (List.flatMap_append_perm _ _ _).symm
  have hsplit : program.expressions.flatMap (·.names) =
      program.definitions.flatMap (·.expression.names) ++
        program.expression.toList.flatMap (·.names) := by
    simp [expressions, List.flatMap_map]
  rw [hsplit] at hexpressions
  rw [names, declarations, List.append_assoc]
  refine (hdefinitions.append_right _).trans ?_
  rw [List.append_assoc]
  exact hexpressions.append_left _

end Program

/-- The names of a linked program have the identities 0, 1, 2 and so on, from left to right. -/
theorem Cursor.names_of_parse {cursor : Cursor} {program : LinkedProgram}
    (h : cursor.parse = .ok program) :
    program.names.map (·.id.index) = List.range program.names.length := by
  obtain ⟨derivation, _, _, _, rfl⟩ := Cursor.parse_eq_ok_iff.1 h
  rw [derivation.names_build, derivation.length_names_build]

/-- **The uses of a linked program come in ascending order of their identities.** -/
theorem Cursor.pairwise_uses_of_parse {cursor : Cursor} {program : LinkedProgram}
    (h : cursor.parse = .ok program) :
    program.uses.Pairwise fun first second => first.id.index < second.id.index := by
  obtain ⟨derivation, _, _, _, rfl⟩ := Cursor.parse_eq_ok_iff.1 h
  exact derivation.pairwise_uses

/-- A declaration has the identity of no use. -/
theorem Cursor.id_ne_of_mem_declarations {cursor : Cursor} {program : LinkedProgram}
    (h : cursor.parse = .ok program) {declaration use : Name}
    (hdeclaration : declaration ∈ program.declarations) (huse : use ∈ program.uses) :
    declaration.id ≠ use.id := by
  have hnodup : (program.names.map (·.id)).Nodup := by
    refine ProgramDerivation.nodup_map_of_index (·.index) ?_
    rw [Cursor.names_of_parse h]
    exact List.nodup_range
  rw [(program.names_perm.map (·.id)).nodup_iff, List.map_append, List.nodup_append] at hnodup
  exact hnodup.2.2 _ (List.mem_map_of_mem hdeclaration) _ (List.mem_map_of_mem huse)

/-! ## The table in both directions -/

namespace BindingTable

theorem usesOf_recordAll (table : BindingTable) (sightings : List Sighting) (binder : Binder) :
    (table.recordAll sightings).usesOf binder =
      table.usesOf binder ++
        (sightings.filter (·.binder == some binder)).map (·.name.id) := by
  induction sightings generalizing table with
  | nil => simp [recordAll]
  | cons sighting rest ih =>
    have hrest := ih (table.record sighting.name.id sighting.binder)
    rw [usesOf_record] at hrest
    refine hrest.trans ?_
    by_cases hbinder : sighting.binder = some binder
    · simp [hbinder]
    · simp [hbinder, Ne.symm hbinder]

/-- A name is a use exactly if it is entered. -/
theorem isUse_iff {table : BindingTable} {id : NameId} :
    table.isUse id = true ↔ id ∈ table.bindings.map (·.1) := by
  unfold isUse
  induction table.bindings with
  | nil => simp
  | cons entry rest ih =>
    obtain ⟨other, binder⟩ := entry
    rw [lookup_cons_eq_ite]
    by_cases hid : id = other <;> simp [hid, ih]

theorem isFree_iff {table : BindingTable} {id : NameId} :
    table.isFree id = true ↔ table.isUse id = true ∧ table.binderOf? id = none := by
  unfold isFree isUse binderOf?
  cases table.bindings.lookup id with
  | none => simp
  | some binder => cases binder <;> simp

theorem isUse_of_binderOf? {table : BindingTable} {id : NameId} {binder : Binder}
    (h : table.binderOf? id = some binder) : table.isUse id = true := by
  unfold binderOf? at h
  unfold isUse
  cases hlookup : table.bindings.lookup id with
  | none => simp [hlookup] at h
  | some answer => rfl

end BindingTable

namespace LinkedProgram.WellLinked

variable {program : LinkedProgram}

theorem isUse_iff (h : program.WellLinked) {id : NameId} :
    program.table.isUse id = true ↔ ∃ use ∈ program.uses, use.id = id := by
  rw [BindingTable.isUse_iff, h.table_eq, Program.bindings_table, ← Program.map_name_sightings]
  simp

theorem binderOf?_of_mem (h : program.WellLinked) {sighting : Sighting}
    (hmem : sighting ∈ program.sightings) :
    program.table.binderOf? sighting.name.id = sighting.binder := by
  rw [BindingTable.binderOf?, h.lookup_of_mem hmem]
  rfl

/-- **The list of a binder holds the uses that refer to it, from left to right.** -/
theorem usesOf_eq (h : program.WellLinked) (binder : Binder) :
    program.table.usesOf binder =
      (program.uses.filter fun use =>
        program.table.binderOf? use.id == some binder).map (·.id) := by
  have hlist : program.table.usesOf binder =
      (program.sightings.filter (·.binder == some binder)).map (·.name.id) := by
    rw [h.table_eq]
    exact BindingTable.usesOf_recordAll {} program.sightings binder
  rw [hlist, ← Program.map_name_sightings, List.filter_map, List.map_map]
  congr 1
  apply List.filter_congr
  intro sighting hmem
  simp [h.binderOf?_of_mem hmem]

theorem mem_usesOf_iff (h : program.WellLinked) {binder : Binder} {id : NameId} :
    id ∈ program.table.usesOf binder ↔ program.table.binderOf? id = some binder := by
  rw [h.usesOf_eq]
  simp only [List.mem_map, List.mem_filter, beq_iff_eq]
  constructor
  · rintro ⟨use, ⟨_, hbinder⟩, rfl⟩
    exact hbinder
  · intro hbinder
    obtain ⟨use, hmem, rfl⟩ := h.isUse_iff.1 (BindingTable.isUse_of_binderOf? hbinder)
    exact ⟨use, ⟨hmem, hbinder⟩, rfl⟩

theorem useCount_eq (h : program.WellLinked) : program.table.useCount = program.uses.length := by
  rw [BindingTable.useCount, h.table_eq, Program.bindings_table, ← Program.map_name_sightings]
  simp

end LinkedProgram.WellLinked

/-! ## Counting -/

/-- **Values that are all in one list are counted by what they are.** -/
theorem length_filter_isSome_eq_sum {α β : Type} [DecidableEq β] {f : α → Option β}
    {values : List β} (hvalues : values.Nodup) {list : List α}
    (h : ∀ a ∈ list, ∀ b, f a = some b → b ∈ values) :
    (list.filter fun a => (f a).isSome).length =
      (values.map fun b => (list.filter fun a => f a == some b).length).sum := by
  have hmem : ∀ b ∈ (list.filterMap f : Multiset β), b ∈ values.toFinset := by
    intro b hb
    obtain ⟨a, ha, hab⟩ := List.mem_filterMap.1 (Multiset.mem_coe.1 hb)
    exact List.mem_toFinset.2 (h a ha b hab)
  calc (list.filter fun a => (f a).isSome).length
      = (list.filterMap f).length := by
        rw [List.length_filterMap_eq_countP, List.countP_eq_length_filter]
    _ = ∑ b ∈ values.toFinset, (list.filterMap f : Multiset β).count b :=
        (Multiset.sum_count_eq_card hmem).symm
    _ = (values.map fun b => (list.filterMap f : Multiset β).count b).sum :=
        List.sum_toFinset _ hvalues
    _ = (values.map fun b => (list.filter fun a => f a == some b).length).sum := by
        simp [List.count_filterMap, List.countP_eq_length_filter]

/-- All definitions of a program, and all its functions. -/
def Program.allBinders (program : Program) : List Binder :=
  (List.range program.definitions.length).map .definition ++
    program.functions.map (.function ·.id)

theorem Program.nodup_allBinders {program : Program}
    (h : (program.functions.map (·.id)).Nodup) : program.allBinders.Nodup := by
  rw [allBinders, List.nodup_append]
  refine ⟨?_, ?_, ?_⟩
  · refine List.nodup_range.map ?_
    intro first second heq
    exact Binder.definition.inj heq
  · have hmap := h.map (f := Binder.function) fun _ _ heq => Binder.function.inj heq
    rwa [List.map_map] at hmap
  · simp

namespace LinkedProgram.WellLinked

variable {program : LinkedProgram}

/-- What a use refers to is a binder of the program. -/
theorem mem_allBinders (h : program.WellLinked) {use : Name} (huse : use ∈ program.uses)
    {binder : Binder} (hbinder : program.table.binderOf? use.id = some binder) :
    binder ∈ program.allBinders := by
  obtain ⟨root, path, hplace⟩ := Program.mem_uses_iff.1 huse
  cases h.refers_of_binderOf? hplace hbinder with
  | @parameter whole function hroot hinnermost =>
    obtain ⟨outer, ⟨hdescend, _⟩, _⟩ := hinnermost
    have hmem := Program.mem_functions_iff.2
      ⟨root, outer, Program.at?_eq_some_iff.2 ⟨whole, hroot, hdescend⟩⟩
    exact List.mem_append_right _ (List.mem_map.2 ⟨function, hmem, rfl⟩)
  | @definition whole index definition _ _ _ hdefinition _ =>
    have hlt := (List.getElem?_eq_some_iff.1 hdefinition).1
    exact List.mem_append_left _ (List.mem_map.2 ⟨index, List.mem_range.2 hlt, rfl⟩)

/-- **Every use is free or in the list of one binder.** -/
theorem useCount_eq_add_sum (h : program.WellLinked) :
    program.table.useCount =
      (program.uses.filter fun use => program.table.isFree use.id).length +
        (program.allBinders.map fun binder => (program.table.usesOf binder).length).sum := by
  let binderOf (use : Name) := program.table.binderOf? use.id
  have hbound : (program.uses.filter fun use => (binderOf use).isSome).length =
      (program.allBinders.map fun binder => (program.table.usesOf binder).length).sum := by
    simp only [h.usesOf_eq, List.length_map]
    exact length_filter_isSome_eq_sum (Program.nodup_allBinders h.nodup_functions)
      fun use huse binder hbinder => h.mem_allBinders huse hbinder
  have hfree : (program.uses.filter fun use => program.table.isFree use.id) =
      program.uses.filter fun use => !(binderOf use).isSome := by
    apply List.filter_congr
    intro use huse
    have huse' : program.table.isUse use.id = true := h.isUse_iff.2 ⟨use, huse, rfl⟩
    rw [Bool.eq_iff_iff, BindingTable.isFree_iff]
    simp [huse', binderOf]
  rw [h.useCount_eq, hfree, ← hbound, Nat.add_comm]
  exact List.length_eq_length_filter_add _

end LinkedProgram.WellLinked

/-- **The two directions of the table agree and cover the uses.** The identities that the table of a
linked program knows are those of the names that stand where an expression does; names that
introduce something are not among them. A use is free if it has no binder. The list of any binder
holds the identities that refer to it, each once, from left to right and ascending. The uses are
counted, and they are the free ones together with those in the lists of the program's binders. -/
theorem Cursor.uses_indexed_both_ways {cursor : Cursor} {program : LinkedProgram}
    (h : cursor.parse = .ok program) :
    (∀ id, program.table.isUse id = true ↔
      ∃ root path use, program.at? root path = some (.var use) ∧ use.id = id) ∧
    (∀ declaration ∈ program.declarations, program.table.isUse declaration.id = false) ∧
    (∀ id, program.table.isFree id = true ↔
      program.table.isUse id = true ∧ program.table.binderOf? id = none) ∧
    (∀ binder, program.table.usesOf binder =
        (program.uses.filter fun use => program.table.binderOf? use.id == some binder).map (·.id) ∧
      (∀ id, id ∈ program.table.usesOf binder ↔ program.table.binderOf? id = some binder) ∧
      (program.table.usesOf binder).Pairwise (·.index < ·.index)) ∧
    program.table.useCount = program.uses.length ∧
    program.table.useCount =
      (program.uses.filter fun use => program.table.isFree use.id).length +
        (program.allBinders.map fun binder => (program.table.usesOf binder).length).sum := by
  have hlinked := Cursor.wellLinked_of_parse h
  refine ⟨?_, ?_, fun id => BindingTable.isFree_iff, ?_, hlinked.useCount_eq,
    hlinked.useCount_eq_add_sum⟩
  · intro id
    rw [hlinked.isUse_iff]
    constructor
    · rintro ⟨use, huse, hid⟩
      obtain ⟨root, path, hplace⟩ := Program.mem_uses_iff.1 huse
      exact ⟨root, path, use, hplace, hid⟩
    · rintro ⟨root, path, use, hplace, hid⟩
      exact ⟨use, Program.mem_uses_iff.2 ⟨root, path, hplace⟩, hid⟩
  · intro declaration hdeclaration
    rw [Bool.eq_false_iff, ne_eq, hlinked.isUse_iff]
    rintro ⟨use, huse, hid⟩
    exact Cursor.id_ne_of_mem_declarations h hdeclaration huse hid.symm
  · intro binder
    refine ⟨hlinked.usesOf_eq binder, fun id => hlinked.mem_usesOf_iff, ?_⟩
    rw [hlinked.usesOf_eq, List.pairwise_map]
    exact (Cursor.pairwise_uses_of_parse h).sublist List.filter_sublist

/-- In `def f = (f x) (f λx.(x f))` two of the five uses are free, two refer to the definition and
one to the function. -/
theorem Cursor.uses_indexed_both_ways_of_recursion :
    ∃ program : LinkedProgram,
      (Cursor.ofTokens
        [⟨.keyword, "def", ⟨0, 3⟩⟩, ⟨.name, "f", ⟨4, 5⟩⟩, ⟨.equals, "=", ⟨6, 7⟩⟩,
          ⟨.openParen, "(", ⟨8, 9⟩⟩, ⟨.name, "f", ⟨9, 10⟩⟩, ⟨.name, "x", ⟨11, 12⟩⟩,
          ⟨.closeParen, ")", ⟨12, 13⟩⟩, ⟨.openParen, "(", ⟨14, 15⟩⟩, ⟨.name, "f", ⟨15, 16⟩⟩,
          ⟨.lambda, "λ", ⟨17, 19⟩⟩, ⟨.name, "x", ⟨19, 20⟩⟩, ⟨.dot, ".", ⟨20, 21⟩⟩,
          ⟨.openParen, "(", ⟨21, 22⟩⟩, ⟨.name, "x", ⟨22, 23⟩⟩, ⟨.name, "f", ⟨24, 25⟩⟩,
          ⟨.closeParen, ")", ⟨25, 26⟩⟩, ⟨.closeParen, ")", ⟨26, 27⟩⟩]).parse = .ok program ∧
      program.table.isUse ⟨0⟩ = false ∧
      (∀ id, id ∈ [⟨3⟩, ⟨6⟩] ↔ program.table.binderOf? id = some (.definition 0)) ∧
      (program.uses.filter fun use => program.table.isFree use.id).length + (2 + 1) = 5 := by
  let derivation : ProgramDerivation :=
    { definitions := [⟨⟨"def", ⟨0, 3⟩⟩, ⟨"f", ⟨4, 5⟩⟩, ⟨"=", ⟨6, 7⟩⟩,
        .application ⟨"(", ⟨8, 9⟩⟩ (.name ⟨"f", ⟨9, 10⟩⟩) (.name ⟨"x", ⟨11, 12⟩⟩)
          ⟨")", ⟨12, 13⟩⟩⟩]
      expression := some (.application ⟨"(", ⟨14, 15⟩⟩ (.name ⟨"f", ⟨15, 16⟩⟩)
        (.function ⟨"λ", ⟨17, 19⟩⟩ ⟨"x", ⟨19, 20⟩⟩ ⟨".", ⟨20, 21⟩⟩
          (.application ⟨"(", ⟨21, 22⟩⟩ (.name ⟨"x", ⟨22, 23⟩⟩) (.name ⟨"f", ⟨24, 25⟩⟩)
            ⟨")", ⟨25, 26⟩⟩)) ⟨")", ⟨26, 27⟩⟩) }
  have hheights : ∀ expression ∈ derivation.expressions, expression.height ≤ maxNesting := by
    simp [derivation, ProgramDerivation.expressions, ExprDerivation.height, maxNesting]
  have h : (Cursor.ofTokens derivation.tokens).parse =
      .ok ⟨derivation.build, derivation.build.table⟩ :=
    Cursor.parse_eq_ok_iff.2 ⟨derivation, rfl, hheights, by simp [derivation], rfl⟩
  obtain ⟨_, hdeclarations, _, hlists, hcount, hsum⟩ := Cursor.uses_indexed_both_ways h
  refine ⟨_, h, ?_, (hlists (.definition 0)).2.1, ?_⟩
  · exact hdeclarations ⟨⟨0⟩, "f", ⟨4, 5⟩⟩ List.mem_cons_self
  · exact hsum.symm.trans (hcount.trans rfl)

end ScopedLambda
