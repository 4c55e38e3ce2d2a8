import ScopedLambda.Proofs.InStep
import ScopedLambda.Proofs.Lines
import ScopedLambda.Proofs.Outcomes

/-!
# Preludes

A text of definitions may be put on the lines before another text. What the other text has is moved
behind the definitions and numbered on from theirs; nothing else changes, except that a name that was
free in the trailing expression now means the definition of that name, if there is one, and that a
name of the prelude must not be defined again.

* `Program.withPrelude` — a program with definitions before its own.
* `Binder.moved` — what a binder is behind so many definitions.
* `LinkedProgram.Precedes` — a linked program that consists of two others, the first of which is a
  prelude of the second.

Principal results: `scan_joinLines` — two lines are split into tokens one after the other, refusals
included; `Reader.readProgram_behind` — behind definitions a program is read as by itself;
`Program.sightings_withPrelude` — what its uses mean there; `parse_prelude` — all that becomes of a
text behind a prelude.
-/

set_option autoImplicit false

namespace ScopedLambda

/-! ## Two lines -/

/-- **Two lines are split into tokens one after the other.** -/
theorem scan_joinLines {first : String} {tokens : List Token} (h : scan first = .ok tokens)
    (second : String) :
    scan (joinLines [first, second]) =
      (movedResult (first.utf8ByteSize + 1) (scan second)).map (tokens ++ ·) := by
  rw [joinLines, String.intercalate_cons_cons, String.intercalate_singleton, scan_line_break, h]
  rfl

/-! ## Reading behind definitions -/

/-- The program with definitions before its own. -/
def Program.withPrelude (program : Program) (prelude : List Definition) : Program :=
  ⟨prelude ++ program.definitions, program.expression⟩

theorem Program.definitions_withPrelude (program : Program) (prelude : List Definition) :
    (program.withPrelude prelude).definitions = prelude ++ program.definitions := rfl

theorem Program.expression_withPrelude (program : Program) (prelude : List Definition) :
    (program.withPrelude prelude).expression = program.expression := rfl

namespace Reader

/-- The result of a reading with what was made replaced. -/
def mapValue {α β : Type} (f : α → β) : EStateM.Result GrammarFault ReadState α →
    EStateM.Result GrammarFault ReadState β
  | .ok value last => .ok (f value) last
  | .error fault last => .error fault last

/-- Definitions that are to come are read before those behind them. -/
theorem readDefinitions_behind {prelude : List DefinitionDerivation} {state middle : ReadState}
    (hheights : ∀ derivation ∈ prelude, derivation.expression.height ≤ maxNesting)
    (h : state.Advances (prelude.flatMap (·.tokens)) (DefinitionDerivation.nameCounts prelude)
      (DefinitionDerivation.functionCounts prelude) middle) :
    readDefinitions state =
      mapValue (DefinitionDerivation.buildAll state.names state.functions prelude ++ ·)
        (readDefinitions middle) := by
  induction prelude generalizing state with
  | nil =>
    obtain rfl := ReadState.advances_nil_iff.1 h
    cases readDefinitions state <;> rfl
  | cons derivation rest ih =>
    obtain ⟨next, hfirst, hrest⟩ := ReadState.advances_append_iff.1 h
    have hread := readDefinition_ok_iff.2
      ⟨derivation, hheights derivation List.mem_cons_self, hfirst, rfl⟩
    have hothers := ih (fun other hother => hheights other (List.mem_cons_of_mem _ hother)) hrest
    rw [readDefinitions_of_keyword (peek_keyword_of_readDefinition hread)]
    show EStateM.bind readDefinition _ state = _
    unfold EStateM.bind
    rw [hread]
    show EStateM.bind readDefinitions _ next = _
    unfold EStateM.bind
    rw [hothers, DefinitionDerivation.buildAll, hfirst.names, hfirst.functions]
    cases readDefinitions middle <;> rfl

/-- **Behind definitions a program is read as by itself.** -/
theorem readProgram_behind {prelude : List DefinitionDerivation} {state middle : ReadState}
    (hheights : ∀ derivation ∈ prelude, derivation.expression.height ≤ maxNesting)
    (h : state.Advances (prelude.flatMap (·.tokens)) (DefinitionDerivation.nameCounts prelude)
      (DefinitionDerivation.functionCounts prelude) middle) :
    Reader.readProgram state =
      mapValue (·.withPrelude (DefinitionDerivation.buildAll state.names state.functions prelude))
        (Reader.readProgram middle) := by
  show EStateM.bind readDefinitions _ state = mapValue _ (EStateM.bind readDefinitions _ middle)
  unfold EStateM.bind
  rw [readDefinitions_behind hheights h]
  cases readDefinitions middle with
  | error fault last => rfl
  | ok definitions last =>
    show EStateM.bind readTrailing _ last = mapValue _ (EStateM.bind readTrailing _ last)
    unfold EStateM.bind
    cases readTrailing last with
    | error fault last => rfl
    | ok expression last =>
      show EStateM.bind expectEnd _ last = mapValue _ (EStateM.bind expectEnd _ last)
      unfold EStateM.bind
      cases expectEnd last <;> rfl

end Reader

/-- **Behind the tokens of definitions, relabelled tokens are read as the relabelled program, or
refused for the relabelled fault.** -/
theorem Cursor.readProgram_behind {prelude : List DefinitionDerivation}
    (hheights : ∀ derivation ∈ prelude, derivation.expression.height ≤ maxNesting)
    (tokens : List Token) (bytes : Nat) :
    let r := Relabelling.shift bytes (DefinitionDerivation.nameCounts prelude)
      (DefinitionDerivation.functionCounts prelude)
    (ofTokens (prelude.flatMap (·.tokens) ++ tokens.map (·.relabel r))).readProgram.1 =
      ((ofTokens tokens).readProgram.1.map fun program =>
        (program.relabel r).withPrelude (DefinitionDerivation.buildAll 0 0 prelude)).mapError
          (GrammarFault.relabel r) := by
  intro r
  let middle : ReadState := ⟨⟨(prelude.flatMap (·.tokens)).reverse, tokens.map (·.relabel r)⟩,
    DefinitionDerivation.nameCounts prelude, DefinitionDerivation.functionCounts prelude⟩
  have hadvances : (ReadState.start (ofTokens
      (prelude.flatMap (·.tokens) ++ tokens.map (·.relabel r)))).Advances
        (prelude.flatMap (·.tokens)) (DefinitionDerivation.nameCounts prelude)
        (DefinitionDerivation.functionCounts prelude) middle :=
    ⟨rfl, (List.append_nil _).symm, (Nat.zero_add _).symm, (Nat.zero_add _).symm⟩
  have hbehind := Reader.readProgram_behind hheights hadvances
  have hsame := @Reader.sameResult_readProgram r tokens (Relabelling.regular_shift _ _ _) middle rfl
    (congrArg NameId.mk (Nat.zero_add _).symm) (congrArg FunctionId.mk (Nat.zero_add _).symm)
  unfold readProgram
  rw [hbehind]
  generalize Reader.readProgram (.start (ofTokens tokens)) = result at hsame ⊢
  generalize Reader.readProgram middle = result' at hsame ⊢
  cases hsame <;> rfl

/-! ## Linking behind definitions -/

/-- A binder behind so many definitions. -/
def Binder.moved (definitions : Nat) (r : Relabelling) : Binder → Binder
  | .definition index => .definition (definitions + index)
  | .function id => .function (r.function id)

/-- What a text means in a definition behind a prelude: what it meant without, moved. -/
def definitionMeaning (prelude : List Definition) (r : Relabelling) (_ : String)
    (binder : Option Binder) : Option Binder :=
  binder.map (·.moved prelude.length r)

/-- What a text means in a trailing expression behind a prelude: what it meant without, moved, or
else what the prelude makes of it. -/
def trailingMeaning (prelude : List Definition) (r : Relabelling) (text : String)
    (binder : Option Binder) : Option Binder :=
  (binder.map (·.moved prelude.length r)).or ((Scope.defineAll {} 0 prelude).binder? text)

section Linking

variable {prelude : List Definition} {program : Program} {r : Relabelling}

/-- Where texts stay as they are, so do the names of definitions. -/
theorem Program.map_name_relabel (htext : r.text = id) (program : Program) :
    (program.relabel r).definitions.map (·.name.text) =
      program.definitions.map (·.name.text) := by
  simp [relabel, Definition.relabel, Name.relabel, htext]

theorem Scope.binder?_defineAll (definitions : List Definition) (text : String) :
    (Scope.defineAll {} 0 definitions).binder? text =
      ((Scope.defineAll {} 0 definitions).definition? text).map .definition := by
  have hnone : (Scope.defineAll {} 0 definitions).function? text = none :=
    Scope.function?_defineAll {} 0 definitions text
  rw [binder?, hnone]

/-- **The scope of a trailing expression behind a prelude.** -/
theorem Program.binder?_scope_withPrelude (htext : r.text = id)
    (hnames : (program.definitions.map (·.name.text)).Nodup) (text : String) :
    ((program.relabel r).withPrelude prelude).scope.binder? (r.text text) =
      trailingMeaning prelude r text (program.scope.binder? text) := by
  have hsame := map_name_relabel htext program
  have hsplit := Scope.defineAll_append {} 0 prelude (program.relabel r).definitions
  rw [trailingMeaning, scope, scope, Scope.binder?_defineAll, Scope.binder?_defineAll,
    Scope.binder?_defineAll, htext, id_eq, definitions_withPrelude, hsplit, Nat.zero_add]
  by_cases hknown : text ∈ program.definitions.map (·.name.text)
  · obtain ⟨definition, hmem, rfl⟩ := List.mem_map.1 hknown
    obtain ⟨index, hindex⟩ := List.mem_iff_getElem?.1 hmem
    have hmoved : (program.relabel r).definitions[index]? = some (definition.relabel r) := by
      simp [relabel, hindex]
    have hname : (definition.relabel r).name.text = definition.name.text := congrFun htext _
    have hlookup := @Scope.definition?_defineAll (Scope.defineAll {} 0 prelude) prelude.length _ _ _
      (hsame ▸ hnames) hmoved
    rw [hname] at hlookup
    rw [hlookup, Scope.definition?_defineAll hnames hindex, Nat.zero_add]
    rfl
  · have hunknown : text ∉ (program.relabel r).definitions.map (·.name.text) := hsame ▸ hknown
    rw [Scope.definition?_defineAll_of_notMem hunknown,
      Scope.definition?_defineAll_of_notMem hknown]
    rfl

/-- **The uses of a program behind a prelude are those of the prelude and its own.** -/
theorem Program.sightings_withPrelude (htext : r.text = id)
    (hnames : (program.definitions.map (·.name.text)).Nodup) :
    ((program.relabel r).withPrelude prelude).sightings =
      prelude.flatMap (·.expression.sightings {} 2) ++
        ((program.definitions.flatMap (·.expression.sightings {} 2)).map
            (·.adjust r (definitionMeaning prelude r)) ++
          (program.expression.toList.flatMap (·.sightings program.scope 1)).map
            (·.adjust r (trailingMeaning prelude r))) := by
  have hinjective : Function.Injective r.text := htext ▸ Function.injective_id
  have hdefinition (definition : Definition) :
      (definition.relabel r).expression.sightings {} 2 =
        (definition.expression.sightings {} 2).map (·.adjust r (definitionMeaning prelude r)) :=
    Expr.sightings_of_binder? hinjective (fun _ _ => rfl) (fun _ => rfl) 2 definition.expression
  have htrailing (expr : Expr) :
      (expr.relabel r).sightings ((program.relabel r).withPrelude prelude).scope 1 =
        (expr.sightings program.scope 1).map (·.adjust r (trailingMeaning prelude r)) :=
    Expr.sightings_of_binder? hinjective (fun _ _ => rfl)
      (binder?_scope_withPrelude htext hnames) 1 expr
  have hexpression : (program.relabel r).expression = program.expression.map (·.relabel r) := rfl
  rw [sightings, definitions_withPrelude, expression_withPrelude, hexpression, List.flatMap_append,
    List.append_assoc]
  congr 2
  · simp only [relabel, List.flatMap_map, List.map_flatMap, hdefinition]
  · cases program.expression with
    | none => rfl
    | some expression => simpa using htrailing expression

/-- The shadowings of a program behind a prelude are those of the prelude and its own. -/
theorem Program.shadowings_withPrelude (htext : r.text = id) :
    ((program.relabel r).withPrelude prelude).shadowings =
      prelude.flatMap (·.expression.shadowings {}) ++ program.shadowings.map (·.relabel r) := by
  have hinjective : Function.Injective r.text := htext ▸ Function.injective_id
  have hdefinition (definition : Definition) :
      (definition.relabel r).expression.shadowings {} =
        (definition.expression.shadowings {}).map (·.relabel r) :=
    Expr.shadowings_of_function? hinjective (fun _ => rfl) definition.expression
  have htrailing (expr : Expr) :
      (expr.relabel r).shadowings ((program.relabel r).withPrelude prelude).scope =
        (expr.shadowings program.scope).map (·.relabel r) := by
    refine Expr.shadowings_of_function? hinjective (fun text => ?_) expr
    rw [scope, scope, Scope.function?_defineAll, Scope.function?_defineAll]
    rfl
  have hexpression : (program.relabel r).expression = program.expression.map (·.relabel r) := rfl
  rw [shadowings, shadowings, definitions_withPrelude, expression_withPrelude, hexpression,
    List.flatMap_append, List.append_assoc, List.map_append]
  congr 2
  · simp only [relabel, List.flatMap_map, List.map_flatMap, hdefinition]
  · cases program.expression with
    | none => rfl
    | some expression => simpa using htrailing expression

end Linking

/-! ## Linked programs behind a prelude -/

/-- The first program is a prelude, the second one follows it, moved and numbered as `r` says, and
the third one is both. -/
structure LinkedProgram.Precedes (r : Relabelling) (prelude program whole : LinkedProgram) :
    Prop where
  tree : whole.toProgram = (program.toProgram.relabel r).withPrelude prelude.definitions
  shadowings : whole.table.shadowings =
    prelude.table.shadowings ++ program.table.shadowings.map (·.relabel r)
  prelude_use : ∀ use ∈ prelude.uses,
    whole.table.bindings.lookup use.id = prelude.table.bindings.lookup use.id
  definition_use : ∀ definition ∈ program.definitions, ∀ use ∈ definition.expression.uses,
    whole.table.bindings.lookup (r.name use.id) =
      (program.table.bindings.lookup use.id).map
        (Option.map (·.moved prelude.definitions.length r))
  bound_use : ∀ expression ∈ program.expression, ∀ use ∈ expression.uses, ∀ binder,
    program.table.binderOf? use.id = some binder →
      whole.table.binderOf? (r.name use.id) = some (binder.moved prelude.definitions.length r)
  defined_use : ∀ expression ∈ program.expression, ∀ use ∈ expression.uses,
    program.table.isFree use.id = true → ∀ (index : Nat) (definition : Definition),
      prelude.definitions[index]? = some definition → definition.name.text = use.text →
        whole.table.binderOf? (r.name use.id) = some (.definition index)
  free_use : ∀ expression ∈ program.expression, ∀ use ∈ expression.uses,
    program.table.isFree use.id = true →
      (∀ definition ∈ prelude.definitions, definition.name.text ≠ use.text) →
        whole.table.isFree (r.name use.id) = true

/-- A use of an expression is seen in the walk. -/
theorem Expr.exists_sighting {expr : Expr} {use : Name} (h : use ∈ expr.uses) (scope : Scope)
    (depth : Nat) : ∃ sighting ∈ expr.sightings scope depth, sighting.name = use := by
  rwa [← expr.map_name_sightings scope depth, List.mem_map] at h

section Linked

variable {r : Relabelling} {prelude program whole : LinkedProgram}

/-- The table holds of a use in the trailing expression what the use means behind the prelude. -/
theorem LinkedProgram.lookup_trailing_use (htext : r.text = id) (hprogram : program.WellLinked)
    (hwhole : whole.WellLinked)
    (htree : whole.toProgram = (program.toProgram.relabel r).withPrelude prelude.definitions)
    {expression : Expr} (hexpression : program.expression = some expression) {use : Name}
    (huse : use ∈ expression.uses) :
    ∃ binder, program.table.bindings.lookup use.id = some binder ∧
      whole.table.bindings.lookup (r.name use.id) =
        some (trailingMeaning prelude.definitions r use.text binder) := by
  obtain ⟨sighting, hmem, rfl⟩ := Expr.exists_sighting huse program.scope 1
  have hown : sighting ∈ program.sightings :=
    List.mem_append_right _ (by simpa [hexpression] using hmem)
  have hmoved : sighting.adjust r (trailingMeaning prelude.definitions r) ∈ whole.sightings := by
    rw [htree, Program.sightings_withPrelude htext hprogram.nodup_definitions]
    refine List.mem_append_right _ (List.mem_append_right _ (List.mem_map_of_mem ?_))
    simpa [hexpression] using hmem
  exact ⟨_, hprogram.lookup_of_mem hown, hwhole.lookup_of_mem hmoved⟩

/-- **Behind a prelude, uses refer to what they referred to; only what was free in the trailing
expression may refer to a definition of the prelude.** -/
theorem LinkedProgram.precedes_of_tree (htext : r.text = id) (hprelude : prelude.WellLinked)
    (hprogram : program.WellLinked) (hwhole : whole.WellLinked)
    (htrailing : prelude.expression = none)
    (htree : whole.toProgram = (program.toProgram.relabel r).withPrelude prelude.definitions) :
    prelude.Precedes r program whole where
  tree := htree
  shadowings := by
    rw [hwhole.table_eq, hprelude.table_eq, hprogram.table_eq, htree]
    show ((program.toProgram.relabel r).withPrelude prelude.definitions).shadowings =
      prelude.toProgram.shadowings ++ program.toProgram.shadowings.map (·.relabel r)
    rw [Program.shadowings_withPrelude htext]
    simp [Program.shadowings, htrailing]
  prelude_use use huse := by
    rw [← Program.map_name_sightings] at huse
    obtain ⟨sighting, hmem, rfl⟩ := List.mem_map.1 huse
    have hmem' : sighting ∈ whole.sightings := by
      rw [htree, Program.sightings_withPrelude htext hprogram.nodup_definitions]
      refine List.mem_append_left _ ?_
      simpa [Program.sightings, htrailing] using hmem
    rw [hwhole.lookup_of_mem hmem', hprelude.lookup_of_mem hmem]
  definition_use definition hdefinition use huse := by
    obtain ⟨sighting, hmem, rfl⟩ := Expr.exists_sighting huse {} 2
    have hall : sighting ∈ program.definitions.flatMap (·.expression.sightings {} 2) :=
      List.mem_flatMap.2 ⟨definition, hdefinition, hmem⟩
    have hmoved : sighting.adjust r (definitionMeaning prelude.definitions r) ∈
        whole.sightings := by
      rw [htree, Program.sightings_withPrelude htext hprogram.nodup_definitions]
      exact List.mem_append_right _ (List.mem_append_left _ (List.mem_map_of_mem hall))
    rw [hprogram.lookup_of_mem (List.mem_append_left _ hall)]
    exact hwhole.lookup_of_mem hmoved
  bound_use expression hexpression use huse binder hbinder := by
    obtain ⟨answer, hown, hmoved⟩ :=
      lookup_trailing_use htext hprogram hwhole htree hexpression huse
    rw [BindingTable.binderOf?, hown, Option.join_some] at hbinder
    rw [BindingTable.binderOf?, hmoved, hbinder]
    rfl
  defined_use expression hexpression use huse hfree index definition hdefinition hname := by
    obtain ⟨answer, hown, hmoved⟩ :=
      lookup_trailing_use htext hprogram hwhole htree hexpression huse
    obtain rfl : answer = none := by simpa [BindingTable.isFree, hown] using hfree
    have hindex := @Scope.definition?_defineAll {} 0 _ _ _ hprelude.nodup_definitions hdefinition
    rw [BindingTable.binderOf?, hmoved, trailingMeaning, Scope.binder?_defineAll, ← hname, hindex,
      Nat.zero_add]
    rfl
  free_use expression hexpression use huse hfree hunknown := by
    obtain ⟨answer, hown, hmoved⟩ :=
      lookup_trailing_use htext hprogram hwhole htree hexpression huse
    obtain rfl : answer = none := by simpa [BindingTable.isFree, hown] using hfree
    have hnone : use.text ∉ prelude.definitions.map (·.name.text) := by simpa using hunknown
    rw [BindingTable.isFree, hmoved, trailingMeaning, Scope.binder?_defineAll,
      Scope.definition?_defineAll_of_notMem hnone]
    rfl

end Linked

/-! ## Texts behind a prelude -/

/-- Moves what stands behind a prelude: past its text and the end of the line, and past its names and
functions. -/
def preludeShift (text : String) (prelude : LinkedProgram) : Relabelling :=
  .shift (text.utf8ByteSize + 1) prelude.names.length prelude.functions.length

section Texts

variable {first second : String} {prelude : LinkedProgram}

/-- **Behind the text of a prelude, tokens are read as by themselves, moved.** -/
theorem exists_readProgram_joinLines (h : parse first = .ok prelude)
    (htrailing : prelude.expression = none) {own : List Token} (hscan : scan second = .ok own) :
    ∃ tokens, scan (joinLines [first, second]) = .ok tokens ∧
      (Cursor.ofTokens tokens).readProgram.1 =
        ((Cursor.ofTokens own).readProgram.1.map fun program =>
          (program.relabel (preludeShift first prelude)).withPrelude prelude.definitions).mapError
            (GrammarFault.relabel (preludeShift first prelude)) := by
  obtain ⟨tokens, hfirst, hparse⟩ := exists_scan_of_parse h
  obtain ⟨derivation, htokens, hheights, _, rfl⟩ := Cursor.parse_eq_ok_iff.1 hparse
  obtain rfl : derivation.tokens = tokens := htokens
  have hshift : preludeShift first ⟨derivation.build, derivation.build.table⟩ =
      .shift (first.utf8ByteSize + 1) derivation.nameCount derivation.functionCount := by
    rw [preludeShift, derivation.length_names_build, derivation.length_functions_build]
  obtain ⟨definitions, expression⟩ := derivation
  obtain rfl : expression = none := Option.map_eq_none_iff.1 htrailing
  have hdefinitions := (Reader.forall_expressions_iff.1 hheights).1
  have hread := Cursor.readProgram_behind hdefinitions own (first.utf8ByteSize + 1)
  have htokens : (⟨definitions, none⟩ : ProgramDerivation).tokens =
      definitions.flatMap (·.tokens) := List.append_nil _
  refine ⟨_, ?_, hshift ▸ hread⟩
  rw [scan_joinLines hfirst, hscan, htokens]
  rfl

/-- A character that is refused behind a prelude is refused there. -/
theorem parse_joinLines_of_lexical (h : parse first = .ok prelude) {error : LexicalError}
    (hsecond : parse second = .error (.lexical error)) :
    parse (joinLines [first, second]) =
      .error (.lexical (error.relabel (preludeShift first prelude))) := by
  obtain ⟨tokens, hfirst, _⟩ := exists_scan_of_parse h
  rw [parse_eq_lexical_iff] at hsecond ⊢
  rw [scan_joinLines hfirst, hsecond]
  rfl

/-- Where texts stay as they are, a relabelled fault is told in the same words, of another place. -/
theorem GrammarFault.diagnostic_relabel {r : Relabelling} (htext : r.text = id)
    (fault : GrammarFault) :
    (fault.relabel r).diagnostic =
      { fault.diagnostic with position := fault.diagnostic.position.map r.span } := by
  have hdescribe (token : Token) : (token.relabel r).describe = token.describe := by
    simp [Token.relabel, Token.describe, htext]
  cases fault <;> simp [GrammarFault.relabel, GrammarFault.diagnostic, hdescribe]

/-- A fault of the grammar behind a prelude is found there. -/
theorem parse_joinLines_of_grammar (h : parse first = .ok prelude)
    (htrailing : prelude.expression = none) {diagnostic : Diagnostic}
    (hsecond : parse second = .error (.grammar diagnostic)) :
    parse (joinLines [first, second]) = .error (.grammar { diagnostic with
      position := diagnostic.position.map (preludeShift first prelude).span }) := by
  obtain ⟨own, hscan, hparse⟩ := exists_scan_of_parse_eq hsecond (by simp)
  obtain ⟨fault, hfault, rfl⟩ := Cursor.exists_readProgram_error hparse
  obtain ⟨tokens, hjoined, hread⟩ := exists_readProgram_joinLines h htrailing hscan
  rw [hfault] at hread
  rw [parse_eq_of_scan hjoined, Cursor.parse_of_readProgram_error hread,
    GrammarFault.diagnostic_relabel rfl]

/-- What becomes of a program that was read behind a prelude. -/
theorem parse_joinLines_of_readProgram (h : parse first = .ok prelude)
    (htrailing : prelude.expression = none) {own : List Token} {program : Program}
    (hscan : scan second = .ok own) (hown : (Cursor.ofTokens own).readProgram.1 = .ok program) :
    parse (joinLines [first, second]) =
      ((program.relabel (preludeShift first prelude)).withPrelude
        prelude.definitions).analyse.outcome := by
  obtain ⟨tokens, hjoined, hread⟩ := exists_readProgram_joinLines h htrailing hscan
  rw [hown] at hread
  rw [parse_eq_of_scan hjoined, Cursor.parse_of_readProgram_ok hread]

/-- A name that is defined again behind a prelude ends the walk. -/
theorem exists_repeated_of_parse_joinLines (h : parse first = .ok prelude)
    (htrailing : prelude.expression = none) {own : List Token} {program : Program}
    (hscan : scan second = .ok own) (hown : (Cursor.ofTokens own).readProgram.1 = .ok program)
    (hnames : ¬ ((prelude.definitions ++ program.definitions).map (·.name.text)).Nodup) :
    ∃ fresh definition rest, program.definitions = fresh ++ definition :: rest ∧
      ((prelude.definitions ++ fresh).map (·.name.text)).Nodup ∧
      definition.name.text ∈ (prelude.definitions ++ fresh).map (·.name.text) ∧
      parse (joinLines [first, second]) = .error (.duplicateDefinition definition.name.text
        ((preludeShift first prelude).span definition.name.span)) := by
  obtain ⟨_, _, hparse⟩ := exists_scan_of_parse h
  have hprelude := (Cursor.wellLinked_of_parse hparse).nodup_definitions
  obtain ⟨fresh, definition, rest, hdefinitions, hfresh, hmem⟩ :=
    Program.exists_first_repeated hprelude hnames
  refine ⟨fresh, definition, rest, hdefinitions, hfresh, hmem, ?_⟩
  let r := preludeShift first prelude
  have hmoved : ((program.relabel r).withPrelude prelude.definitions).definitions =
      (prelude.definitions ++ fresh.map (·.relabel r)) ++
        definition.relabel r :: rest.map (·.relabel r) := by
    simp [Program.withPrelude, Program.relabel, hdefinitions]
  have hsame : (prelude.definitions ++ fresh.map (·.relabel r)).map (·.name.text) =
      (prelude.definitions ++ fresh).map (·.name.text) := by
    simp [Definition.relabel, Name.relabel, r, preludeShift, Relabelling.shift]
  rw [parse_joinLines_of_readProgram h htrailing hscan hown]
  exact Program.outcome_analyse_of_repeated hmoved (hsame ▸ hfresh) (hsame ▸ hmem)

/-- A program whose names the prelude does not have is linked behind it. -/
theorem exists_precedes_of_parse (h : parse first = .ok prelude)
    (htrailing : prelude.expression = none) {program : LinkedProgram}
    (hsecond : parse second = .ok program)
    (hnew : ∀ definition ∈ program.definitions, ∀ earlier ∈ prelude.definitions,
      earlier.name.text ≠ definition.name.text) :
    ∃ whole, parse (joinLines [first, second]) = .ok whole ∧
      prelude.Precedes (preludeShift first prelude) program whole := by
  obtain ⟨own, hscan, hown⟩ := exists_scan_of_parse hsecond
  obtain ⟨_, _, hfirst⟩ := exists_scan_of_parse h
  have hprelude := Cursor.wellLinked_of_parse hfirst
  have hprogram := Cursor.wellLinked_of_parse hown
  obtain ⟨read, hread⟩ := @Cursor.exists_readProgram_ok (.ofTokens own) (by simp [hown])
  rw [Cursor.parse_of_readProgram_ok hread] at hown
  obtain ⟨_, rfl⟩ := Program.outcome_analyse_eq_ok_iff.1 hown
  let tree := (read.relabel (preludeShift first prelude)).withPrelude prelude.definitions
  have hnames : (tree.definitions.map (·.name.text)).Nodup := by
    rw [Program.definitions_withPrelude, List.map_append, Program.map_name_relabel rfl,
      List.nodup_append]
    refine ⟨hprelude.nodup_definitions, hprogram.nodup_definitions, ?_⟩
    intro text hold other hown hsame
    obtain ⟨earlier, hearlier, rfl⟩ := List.mem_map.1 hold
    obtain ⟨definition, hdefinition, rfl⟩ := List.mem_map.1 hown
    exact hnew definition hdefinition earlier hearlier hsame
  have hwhole : parse (joinLines [first, second]) = .ok ⟨tree, tree.table⟩ := by
    rw [parse_joinLines_of_readProgram h htrailing hscan hread]
    exact Program.outcome_analyse_eq_ok_iff.2 ⟨hnames, rfl⟩
  obtain ⟨_, _, htokens⟩ := exists_scan_of_parse hwhole
  exact ⟨_, hwhole, LinkedProgram.precedes_of_tree rfl hprelude hprogram
    (Cursor.wellLinked_of_parse htokens) htrailing rfl⟩

end Texts

/-- **A text behind a prelude.** Let a text make a program without a trailing expression, and let
another text stand on the lines behind it. If the other text is refused for a character or for its
grammar, so are both together, for the same reason, moved past the first text. If the other text is
refused for a repeated name, or makes a program that defines a name of the prelude, both together are
refused for the first of its definitions whose name the prelude has or an earlier one of its own.
Else both make a program, which has the definitions of the prelude and then all of the other program,
moved past the first text and numbered on. Every use refers to what it referred to, but for those that
were free in the trailing expression: they refer to the definition of the prelude that has their name,
if there is one. -/
theorem parse_prelude {first : String} {prelude : LinkedProgram} (h : parse first = .ok prelude)
    (htrailing : prelude.expression = none) (second : String) :
    let r := preludeShift first prelude
    (∀ error, parse second = .error (.lexical error) →
      parse (joinLines [first, second]) = .error (.lexical (error.relabel r))) ∧
    (∀ diagnostic, parse second = .error (.grammar diagnostic) →
      parse (joinLines [first, second]) =
        .error (.grammar { diagnostic with position := diagnostic.position.map r.span })) ∧
    (((∃ text span, parse second = .error (.duplicateDefinition text span)) ∨
        ∃ program, parse second = .ok program ∧ ∃ definition ∈ program.definitions,
          ∃ earlier ∈ prelude.definitions, earlier.name.text = definition.name.text) →
      ∃ tokens program, scan second = .ok tokens ∧
        (Cursor.ofTokens tokens).readProgram.1 = .ok program ∧
        ∃ fresh definition rest, program.definitions = fresh ++ definition :: rest ∧
          ((prelude.definitions ++ fresh).map (·.name.text)).Nodup ∧
          definition.name.text ∈ (prelude.definitions ++ fresh).map (·.name.text) ∧
          parse (joinLines [first, second]) =
            .error (.duplicateDefinition definition.name.text (r.span definition.name.span))) ∧
    ∀ program, parse second = .ok program →
      (∀ definition ∈ program.definitions, ∀ earlier ∈ prelude.definitions,
        earlier.name.text ≠ definition.name.text) →
      ∃ whole, parse (joinLines [first, second]) = .ok whole ∧
        prelude.Precedes r program whole := by
  intro r
  refine ⟨fun error hsecond => parse_joinLines_of_lexical h hsecond,
    fun diagnostic hsecond => parse_joinLines_of_grammar h htrailing hsecond, ?_,
    fun program hsecond hnew => exists_precedes_of_parse h htrailing hsecond hnew⟩
  rintro (⟨text, span, hsecond⟩ | ⟨program, hsecond, definition, hmem, earlier, hearlier, htext⟩)
  · obtain ⟨own, hscan, hown⟩ := exists_scan_of_parse_eq hsecond (by simp)
    obtain ⟨read, hread⟩ := @Cursor.exists_readProgram_ok (.ofTokens own) (by simp [hown])
    refine ⟨own, read, hscan, hread,
      exists_repeated_of_parse_joinLines h htrailing hscan hread fun hnames => ?_⟩
    -- The names of the second text by itself would be different.
    rw [List.map_append] at hnames
    have hok := Program.outcome_analyse_eq_ok_iff.2 ⟨hnames.of_append_right, rfl⟩
    rw [Cursor.parse_of_readProgram_ok hread, hok] at hown
    cases hown
  · obtain ⟨own, hscan, hown⟩ := exists_scan_of_parse hsecond
    obtain ⟨read, hread⟩ := @Cursor.exists_readProgram_ok (.ofTokens own) (by simp [hown])
    rw [Cursor.parse_of_readProgram_ok hread] at hown
    obtain ⟨_, rfl⟩ := Program.outcome_analyse_eq_ok_iff.1 hown
    refine ⟨own, read, hscan, hread,
      exists_repeated_of_parse_joinLines h htrailing hscan hread fun hnames => ?_⟩
    rw [List.map_append, List.nodup_append] at hnames
    exact hnames.2.2 _ (List.mem_map_of_mem hearlier) _ (List.mem_map_of_mem hmem) htext

/-- Behind `def k = λx.x` the `k` of `(k y)` refers to the definition and `y` stays free, while the
second definition of `k` in `def k = k` is refused. -/
theorem parse_prelude_of_identity :
    (∃ whole, parse (joinLines ["def k = λx.x", "(k y)"]) = .ok whole ∧
      whole.table.binderOf? ⟨3⟩ = some (.definition 0) ∧ whole.table.isFree ⟨4⟩ = true) ∧
    parse (joinLines ["def k = λx.x", "def k = k"]) =
      .error (.duplicateDefinition "k" ⟨18, 19⟩) := by
  let identity : Expr := .lam ⟨0⟩ ⟨⟨1⟩, "x", ⟨10, 11⟩⟩ (.var ⟨⟨2⟩, "x", ⟨12, 13⟩⟩) ⟨8, 13⟩
  let prelude : Program := ⟨[⟨⟨⟨0⟩, "k", ⟨4, 5⟩⟩, identity, ⟨0, 13⟩⟩], none⟩
  have hprelude : parse "def k = λx.x" = .ok ⟨prelude, prelude.table⟩ := by decide +kernel
  constructor
  · let call : Expr := .app (.var ⟨⟨0⟩, "k", ⟨1, 2⟩⟩) (.var ⟨⟨1⟩, "y", ⟨3, 4⟩⟩) ⟨0, 5⟩
    let program : Program := ⟨[], some call⟩
    have hprogram : parse "(k y)" = .ok ⟨program, program.table⟩ := by decide +kernel
    obtain ⟨whole, hwhole, hprecedes⟩ :=
      (parse_prelude hprelude rfl "(k y)").2.2.2 _ hprogram nofun
    refine ⟨whole, hwhole, ?_, ?_⟩
    · exact hprecedes.defined_use call rfl ⟨⟨0⟩, "k", ⟨1, 2⟩⟩ (by decide) (by decide) 0 _ rfl rfl
    · exact hprecedes.free_use call rfl ⟨⟨1⟩, "y", ⟨3, 4⟩⟩ (by decide) (by decide) (by decide)
  · let again : Program := ⟨[⟨⟨⟨0⟩, "k", ⟨4, 5⟩⟩, .var ⟨⟨1⟩, "k", ⟨8, 9⟩⟩, ⟨0, 9⟩⟩], none⟩
    have hagain : parse "def k = k" = .ok ⟨again, again.table⟩ := by decide +kernel
    obtain ⟨tokens, program, hscan, hread, fresh, definition, rest, hsplit, _, _, hrefused⟩ :=
      (parse_prelude hprelude rfl "def k = k").2.2.1
        (.inr ⟨_, hagain, _, List.mem_singleton_self _, _, List.mem_singleton_self _, rfl⟩)
    have hown := parse_eq_of_scan hscan
    rw [hagain, Cursor.parse_of_readProgram_ok hread] at hown
    obtain ⟨_, hlinked⟩ := Program.outcome_analyse_eq_ok_iff.1 hown.symm
    obtain rfl : again = program := congrArg LinkedProgram.toProgram hlinked
    cases fresh with
    | nil =>
      obtain ⟨rfl, rfl⟩ := List.cons.inj hsplit
      exact hrefused
    | cons => simp [again] at hsplit

end ScopedLambda
