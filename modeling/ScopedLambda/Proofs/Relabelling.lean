import Mathlib.Data.List.Nodup
import ScopedLambda.Proofs.Language
import ScopedLambda.Proofs.Walk

/-!
# Relabelling

Reading and linking ask only whether two texts are equal, never what a text, a span or an identity
is. So when these are replaced throughout, what is found is replaced in the same way, provided that
different texts and different functions stay different.

* `Relabelling` — what to put for texts, spans and the two kinds of identities.
* `relabel` — the replacement in tokens, derivations, trees, scopes and tables.
* `Relabelling.Faithful` — different texts and different functions stay different.
* `Relabelling.Textual` — only texts and spans are replaced, spans in step with their merging.
* `Relabelling.unchanged` — the relabelling that leaves all as it is.
* `Relabelling.forgetSpans` — every span is replaced by one and the same.

Principal results: `Program.table_relabel` — linking commutes with relabelling;
`ProgramDerivation.build_relabel` — so does building a tree; `Cursor.parse_of_relabel_eq` — tokens
that are equal up to a relabelling make programs that are equal up to it.
-/

set_option autoImplicit false

namespace ScopedLambda

/-- What to put for every text, span and identity. -/
structure Relabelling where
  text : String → String
  span : Span → Span
  name : NameId → NameId
  function : FunctionId → FunctionId

namespace Relabelling

/-- Different texts and different functions stay different. -/
structure Faithful (r : Relabelling) : Prop where
  text : Function.Injective r.text
  function : Function.Injective r.function

/-- Texts stay different, a span of two parts is replaced by that of the replaced parts, and
identities stay as they are. -/
structure Textual (r : Relabelling) : Prop where
  text : Function.Injective r.text
  span : ∀ first second, r.span (first.merge second) = (r.span first).merge (r.span second)
  name : ∀ id, r.name id = id
  function : ∀ id, r.function id = id

theorem Textual.faithful {r : Relabelling} (h : r.Textual) : r.Faithful where
  text := h.text
  function first second heq := by rwa [h.function, h.function] at heq

/-- Leaves all as it is. -/
def unchanged : Relabelling := ⟨id, id, id, id⟩

/-- Puts one and the same span everywhere. -/
def forgetSpans : Relabelling := ⟨id, fun _ => ⟨0, 0⟩, id, id⟩

theorem textual_forgetSpans : forgetSpans.Textual where
  text := Function.injective_id
  span _ _ := (Span.merge_self _).symm
  name _ := rfl
  function _ := rfl

end Relabelling

/-! ## Trees -/

/-- A name relabelled. -/
def Name.relabel (r : Relabelling) (name : Name) : Name :=
  ⟨r.name name.id, r.text name.text, r.span name.span⟩

/-- An expression relabelled. -/
def Expr.relabel (r : Relabelling) : Expr → Expr
  | .var name => .var (name.relabel r)
  | .lam id parameter body span =>
    .lam (r.function id) (parameter.relabel r) (body.relabel r) (r.span span)
  | .app callee argument span => .app (callee.relabel r) (argument.relabel r) (r.span span)

/-- A definition relabelled. -/
def Definition.relabel (r : Relabelling) (definition : Definition) : Definition :=
  ⟨definition.name.relabel r, definition.expression.relabel r, r.span definition.span⟩

/-- A program relabelled. -/
def Program.relabel (r : Relabelling) (program : Program) : Program :=
  ⟨program.definitions.map (·.relabel r), program.expression.map (·.relabel r)⟩

theorem Expr.relabel_unchanged (expr : Expr) : expr.relabel .unchanged = expr := by
  induction expr with
  | var name => rfl
  | lam id parameter body span ih => exact congrArg (Expr.lam id parameter · span) ih
  | app callee argument span ihc iha => exact congrArg₂ (Expr.app · · span) ihc iha

theorem Program.relabel_unchanged (program : Program) : program.relabel .unchanged = program := by
  have hdefinition (definition : Definition) : definition.relabel .unchanged = definition :=
    congrArg (Definition.mk definition.name · definition.span) definition.expression.relabel_unchanged
  simp [relabel, hdefinition, Expr.relabel_unchanged]

theorem Expr.span_relabel (r : Relabelling) (expr : Expr) :
    (expr.relabel r).span = r.span expr.span := by
  cases expr <;> rfl

/-! ## Scopes and tables -/

/-- A binder relabelled; definitions are known by their place. -/
def Binder.relabel (r : Relabelling) : Binder → Binder
  | .definition index => .definition index
  | .function id => .function (r.function id)

/-- A scope relabelled. -/
def Scope.relabel (r : Relabelling) (scope : Scope) : Scope where
  definitions := scope.definitions.map fun entry => (r.text entry.1, entry.2)
  parameters := scope.parameters.map fun entry => (r.text entry.1, r.function entry.2)

/-- A use relabelled. -/
def Sighting.relabel (r : Relabelling) (sighting : Sighting) : Sighting :=
  ⟨sighting.name.relabel r, sighting.binder.map (·.relabel r), sighting.depth⟩

/-- A shadowing relabelled. -/
def Shadowing.relabel (r : Relabelling) (shadowing : Shadowing) : Shadowing :=
  ⟨r.text shadowing.text, r.function shadowing.shadowed, r.function shadowing.shadowing,
    r.span shadowing.span⟩

/-- A table relabelled. -/
def BindingTable.relabel (r : Relabelling) (table : BindingTable) : BindingTable where
  bindings := table.bindings.map fun entry => (r.name entry.1, entry.2.map (·.relabel r))
  uses := table.uses.map fun entry => (entry.1.relabel r, entry.2.map r.name)
  shadowings := table.shadowings.map (·.relabel r)

/-- A linked program relabelled. -/
def LinkedProgram.relabel (r : Relabelling) (program : LinkedProgram) : LinkedProgram :=
  ⟨program.toProgram.relabel r, program.table.relabel r⟩

theorem Relabelling.Faithful.binder {r : Relabelling} (h : r.Faithful) :
    Function.Injective (Binder.relabel r) := by
  intro first second heq
  cases first <;> cases second <;> simp only [Binder.relabel, reduceCtorEq] at heq
  · exact heq
  · rename_i id id'
    rw [h.function (Binder.function.inj heq)]

/-- Keys that stay different are found again, with their values replaced. -/
theorem lookup_map_of_injective {α α' β β' : Type} [DecidableEq α] [DecidableEq α'] {f : α → α'}
    (hf : Function.Injective f) (g : β → β') (entries : List (α × β)) (key : α) :
    (entries.map fun entry => (f entry.1, g entry.2)).lookup (f key) =
      (entries.lookup key).map g := by
  induction entries with
  | nil => rfl
  | cons entry rest ih =>
    obtain ⟨other, value⟩ := entry
    rw [List.map_cons, lookup_cons_eq_ite, lookup_cons_eq_ite, ih]
    by_cases h : key = other
    · simp [h]
    · simp [h, hf.ne h]

namespace Scope

variable {r : Relabelling}

theorem function?_relabel (h : r.Faithful) (scope : Scope) (text : String) :
    (scope.relabel r).function? (r.text text) = (scope.function? text).map r.function :=
  lookup_map_of_injective h.text r.function scope.parameters text

theorem definition?_relabel (h : r.Faithful) (scope : Scope) (text : String) :
    (scope.relabel r).definition? (r.text text) = scope.definition? text := by
  have hlookup := lookup_map_of_injective h.text id scope.definitions text
  rwa [Option.map_id] at hlookup

/-- **A relabelled text means the relabelled binder.** -/
theorem binder?_relabel (h : r.Faithful) (scope : Scope) (text : String) :
    (scope.relabel r).binder? (r.text text) = (scope.binder? text).map (·.relabel r) := by
  unfold binder?
  rw [function?_relabel h, definition?_relabel h]
  cases scope.function? text with
  | some id => rfl
  | none => cases scope.definition? text <;> rfl

theorem relabel_defineAll (scope : Scope) (index : Nat) (definitions : List Definition) :
    (scope.defineAll index definitions).relabel r =
      (scope.relabel r).defineAll index (definitions.map (·.relabel r)) := by
  induction definitions generalizing scope index with
  | nil => rfl
  | cons definition rest ih => exact ih _ _

end Scope

/-! ## Linking -/

section Linking

variable {r : Relabelling}

/-- A use with its name relabelled and its meaning adjusted. -/
def Sighting.adjust (r : Relabelling) (adjusted : String → Option Binder → Option Binder)
    (sighting : Sighting) : Sighting :=
  ⟨sighting.name.relabel r, adjusted sighting.name.text sighting.binder, sighting.depth⟩

/-- **Uses follow from what texts mean in the scope around them.** Where the replaced texts mean in
one scope what the texts mean in another one, adjusted, and functions are adjusted as they are
relabelled, the relabelled expression shows the adjusted uses. -/
theorem Expr.sightings_of_binder? (htext : Function.Injective r.text)
    {adjusted : String → Option Binder → Option Binder}
    (hfunction : ∀ text id, adjusted text (some (.function id)) = some (.function (r.function id)))
    {scope other : Scope}
    (h : ∀ text, other.binder? (r.text text) = adjusted text (scope.binder? text)) (depth : Nat)
    (expr : Expr) :
    (expr.relabel r).sightings other depth =
      (expr.sightings scope depth).map (·.adjust r adjusted) := by
  induction expr generalizing scope other depth with
  | var name => simp [relabel, sightings, Sighting.adjust, Name.relabel, h]
  | lam id parameter body span ih =>
    refine ih (fun text => ?_) (depth + 1)
    rw [Scope.binder?_bind, Scope.binder?_bind, h]
    by_cases hsame : text = parameter.text <;> simp [Name.relabel, htext.eq_iff, hsame, hfunction]
  | app callee argument span ihc iha =>
    simp only [relabel, sightings, ihc h, iha h, List.map_append]

/-- **Shadowings follow from which parameters are visible in the scope around them.** -/
theorem Expr.shadowings_of_function? (htext : Function.Injective r.text) {scope other : Scope}
    (h : ∀ text, other.function? (r.text text) = (scope.function? text).map r.function)
    (expr : Expr) :
    (expr.relabel r).shadowings other = (expr.shadowings scope).map (·.relabel r) := by
  induction expr generalizing scope other with
  | var name => rfl
  | lam id parameter body span ih =>
    have hparameter : shadowingOf other (r.function id) (parameter.relabel r) =
        (shadowingOf scope id parameter).map (·.relabel r) := by
      unfold shadowingOf
      rw [Name.relabel, h]
      cases scope.function? parameter.text <;> rfl
    have hbound (text : String) :
        (other.bind (r.text parameter.text) (r.function id)).function? (r.text text) =
          ((scope.bind parameter.text id).function? text).map r.function := by
      rw [Scope.function?_bind, Scope.function?_bind, h]
      by_cases hsame : text = parameter.text <;> simp [htext.eq_iff, hsame]
    rw [relabel, shadowings, shadowings, hparameter, List.map_append, ← ih hbound]
    rfl
  | app callee argument span ihc iha =>
    simp only [relabel, shadowings, ihc h, iha h, List.map_append]

/-- A relabelled expression shows the relabelled uses. -/
theorem Expr.sightings_relabel (h : r.Faithful) (scope : Scope) (depth : Nat) (expr : Expr) :
    (expr.relabel r).sightings (scope.relabel r) depth =
      (expr.sightings scope depth).map (·.relabel r) :=
  @Expr.sightings_of_binder? r h.text (fun _ binder => binder.map (·.relabel r))
    (fun _ _ => rfl) _ _ (Scope.binder?_relabel h scope) depth expr

/-- A relabelled expression shows the relabelled shadowings. -/
theorem Expr.shadowings_relabel (h : r.Faithful) (scope : Scope) (expr : Expr) :
    (expr.relabel r).shadowings (scope.relabel r) = (expr.shadowings scope).map (·.relabel r) :=
  Expr.shadowings_of_function? h.text (Scope.function?_relabel h scope) expr

namespace Program

theorem scope_relabel (program : Program) :
    (program.relabel r).scope = program.scope.relabel r :=
  (Scope.relabel_defineAll {} 0 program.definitions).symm

theorem sightings_relabel (h : r.Faithful) (program : Program) :
    (program.relabel r).sightings = program.sightings.map (·.relabel r) := by
  have hdefinition (definition : Definition) :
      (definition.relabel r).expression.sightings {} 2 =
        (definition.expression.sightings {} 2).map (·.relabel r) :=
    definition.expression.sightings_relabel h {} 2
  unfold sightings
  rw [List.map_append, scope_relabel]
  congr 1
  · simp only [relabel, List.flatMap_map, List.map_flatMap, hdefinition]
  · cases hexpression : program.expression with
    | none => simp [relabel, hexpression]
    | some expression => simp [relabel, hexpression, expression.sightings_relabel h]

theorem shadowings_relabel (h : r.Faithful) (program : Program) :
    (program.relabel r).shadowings = program.shadowings.map (·.relabel r) := by
  have hdefinition (definition : Definition) :
      (definition.relabel r).expression.shadowings {} =
        (definition.expression.shadowings {}).map (·.relabel r) :=
    definition.expression.shadowings_relabel h {}
  unfold shadowings
  rw [List.map_append, scope_relabel]
  congr 1
  · simp only [relabel, List.flatMap_map, List.map_flatMap, hdefinition]
  · cases hexpression : program.expression with
    | none => simp [relabel, hexpression]
    | some expression => simp [relabel, hexpression, expression.shadowings_relabel h]

end Program

namespace BindingTable

theorem addUse_relabel (h : r.Faithful) (binder : Binder) (id : NameId)
    (uses : List (Binder × List NameId)) :
    (addUse binder id uses).map (fun entry => (entry.1.relabel r, entry.2.map r.name)) =
      addUse (binder.relabel r) (r.name id)
        (uses.map fun entry => (entry.1.relabel r, entry.2.map r.name)) := by
  induction uses with
  | nil => rfl
  | cons entry rest ih =>
    obtain ⟨other, ids⟩ := entry
    by_cases hother : other = binder
    · simp [addUse, hother]
    · simp [addUse, hother, h.binder.ne hother, ih]

theorem record_relabel (h : r.Faithful) (table : BindingTable) (id : NameId)
    (binder : Option Binder) :
    (table.record id binder).relabel r =
      (table.relabel r).record (r.name id) (binder.map (·.relabel r)) := by
  cases binder with
  | none => simp [record, relabel]
  | some binder => simp [record, relabel, addUse_relabel h]

theorem recordAll_relabel (h : r.Faithful) (table : BindingTable) (sightings : List Sighting) :
    (table.recordAll sightings).relabel r =
      (table.relabel r).recordAll (sightings.map (·.relabel r)) := by
  induction sightings generalizing table with
  | nil => rfl
  | cons sighting rest ih =>
    have hrest := ih (table.record sighting.name.id sighting.binder)
    rw [record_relabel h] at hrest
    exact hrest

end BindingTable

/-- **Linking commutes with relabelling.** -/
theorem Program.table_relabel (h : r.Faithful) (program : Program) :
    (program.relabel r).table = program.table.relabel r := by
  have huses := BindingTable.recordAll_relabel h {} program.sightings
  unfold table
  rw [sightings_relabel h, shadowings_relabel h]
  have hempty : ({} : BindingTable).relabel r = {} := rfl
  rw [hempty] at huses
  rw [← huses]
  rfl

end Linking

/-! ## Tokens and derivations -/

/-- A token relabelled; only names have a text. -/
def Token.relabel (r : Relabelling) (token : Token) : Token :=
  ⟨token.kind, if token.kind = .name then r.text token.lexeme else token.lexeme, r.span token.span⟩

/-- A word relabelled that is a name. -/
def Word.relabel (r : Relabelling) (word : Word) : Word := ⟨r.text word.lexeme, r.span word.span⟩

/-- A word relabelled that is no name. -/
def Word.respan (r : Relabelling) (word : Word) : Word := ⟨word.lexeme, r.span word.span⟩

/-- A derivation of an expression relabelled. -/
def ExprDerivation.relabel (r : Relabelling) : ExprDerivation → ExprDerivation
  | .name word => .name (word.relabel r)
  | .function lambda parameter dot body =>
    .function (lambda.respan r) (parameter.relabel r) (dot.respan r) (body.relabel r)
  | .application openParen callee argument closeParen =>
    .application (openParen.respan r) (callee.relabel r) (argument.relabel r) (closeParen.respan r)

/-- A derivation of a definition relabelled. -/
def DefinitionDerivation.relabel (r : Relabelling) (derivation : DefinitionDerivation) :
    DefinitionDerivation :=
  ⟨derivation.keyword.respan r, derivation.name.relabel r, derivation.equals.respan r,
    derivation.expression.relabel r⟩

/-- A derivation of a program relabelled. -/
def ProgramDerivation.relabel (r : Relabelling) (derivation : ProgramDerivation) :
    ProgramDerivation :=
  ⟨derivation.definitions.map (·.relabel r), derivation.expression.map (·.relabel r)⟩

section Derivations

variable {r : Relabelling}

theorem Word.relabel_token (word : Word) :
    (word.token .name).relabel r = (word.relabel r).token .name := by
  simp [Word.token, Token.relabel, Word.relabel]

theorem Word.respan_token (word : Word) {kind : TokenKind} (hkind : kind ≠ .name) :
    (word.token kind).relabel r = (word.respan r).token kind := by
  simp [Word.token, Token.relabel, Word.respan, hkind]

namespace ExprDerivation

theorem tokens_relabel (derivation : ExprDerivation) :
    (derivation.relabel r).tokens = derivation.tokens.map (·.relabel r) := by
  induction derivation with
  | name word => simp [relabel, tokens, Word.relabel_token]
  | function lambda parameter dot body ih =>
    simp [relabel, tokens, Word.relabel_token, Word.respan_token, ih]
  | application openParen callee argument closeParen ihc iha =>
    simp [relabel, tokens, Word.respan_token, ihc, iha]

theorem height_relabel (derivation : ExprDerivation) :
    (derivation.relabel r).height = derivation.height := by
  induction derivation with
  | name word => rfl
  | function lambda parameter dot body ih => simp [relabel, height, ih]
  | application openParen callee argument closeParen ihc iha => simp [relabel, height, ihc, iha]

theorem nameCount_relabel (derivation : ExprDerivation) :
    (derivation.relabel r).nameCount = derivation.nameCount := by
  induction derivation with
  | name word => rfl
  | function lambda parameter dot body ih => simp [relabel, nameCount, ih]
  | application openParen callee argument closeParen ihc iha =>
    simp [relabel, nameCount, ihc, iha]

theorem functionCount_relabel (derivation : ExprDerivation) :
    (derivation.relabel r).functionCount = derivation.functionCount := by
  induction derivation with
  | name word => rfl
  | function lambda parameter dot body ih => simp [relabel, functionCount, ih]
  | application openParen callee argument closeParen ihc iha =>
    simp [relabel, functionCount, ihc, iha]

/-- A relabelled derivation stands for the relabelled expression. -/
theorem build_relabel (h : r.Textual) (derivation : ExprDerivation) (names functions : Nat) :
    (derivation.relabel r).build names functions =
      (derivation.build names functions).relabel r := by
  induction derivation generalizing names functions with
  | name word => simp [relabel, build, Expr.relabel, Name.relabel, Word.relabel, h.name]
  | function lambda parameter dot body ih =>
    simp only [relabel, build, Expr.relabel, Name.relabel, Word.relabel, Word.respan,
      functionCount_relabel, ih, Expr.span_relabel, h.name, h.function, h.span]
  | application openParen callee argument closeParen ihc iha =>
    simp only [relabel, build, Expr.relabel, Word.respan, nameCount_relabel,
      functionCount_relabel, ihc, iha, h.span]

end ExprDerivation

namespace DefinitionDerivation

theorem nameCount_relabel (derivation : DefinitionDerivation) :
    (derivation.relabel r).nameCount = derivation.nameCount := by
  simp [relabel, nameCount, ExprDerivation.nameCount_relabel]

theorem functionCount_relabel (derivation : DefinitionDerivation) :
    (derivation.relabel r).expression.functionCount = derivation.expression.functionCount :=
  ExprDerivation.functionCount_relabel _

theorem nameCounts_relabel (derivations : List DefinitionDerivation) :
    nameCounts (derivations.map (·.relabel r)) = nameCounts derivations := by
  induction derivations with
  | nil => rfl
  | cons derivation rest ih =>
    rw [List.map_cons, nameCounts, nameCounts, nameCount_relabel, ih]

theorem functionCounts_relabel (derivations : List DefinitionDerivation) :
    functionCounts (derivations.map (·.relabel r)) = functionCounts derivations := by
  induction derivations with
  | nil => rfl
  | cons derivation rest ih =>
    rw [List.map_cons, functionCounts, functionCounts, functionCount_relabel, ih]

theorem build_relabel (h : r.Textual) (derivation : DefinitionDerivation)
    (names functions : Nat) :
    (derivation.relabel r).build names functions =
      (derivation.build names functions).relabel r := by
  simp only [relabel, build, Definition.relabel, Name.relabel, Word.relabel, Word.respan,
    ExprDerivation.build_relabel h, Expr.span_relabel, h.name, h.span]

theorem buildAll_relabel (h : r.Textual) (derivations : List DefinitionDerivation)
    (names functions : Nat) :
    buildAll names functions (derivations.map (·.relabel r)) =
      (buildAll names functions derivations).map (·.relabel r) := by
  induction derivations generalizing names functions with
  | nil => rfl
  | cons derivation rest ih =>
    rw [List.map_cons, buildAll, buildAll, List.map_cons, build_relabel h, nameCount_relabel,
      functionCount_relabel, ih]

end DefinitionDerivation

namespace ProgramDerivation

theorem tokens_relabel (derivation : ProgramDerivation) :
    (derivation.relabel r).tokens = derivation.tokens.map (·.relabel r) := by
  have hdefinition (definition : DefinitionDerivation) :
      (definition.relabel r).tokens = definition.tokens.map (·.relabel r) := by
    simp [DefinitionDerivation.relabel, DefinitionDerivation.tokens, Word.relabel_token,
      Word.respan_token, ExprDerivation.tokens_relabel]
  obtain ⟨definitions, expression⟩ := derivation
  rw [tokens, tokens, List.map_append]
  congr 1
  · simp only [relabel, List.flatMap_map, List.map_flatMap, hdefinition]
  · cases expression with
    | none => rfl
    | some expression => simp [relabel, expression.tokens_relabel]

/-- **A relabelled derivation stands for the relabelled program.** -/
theorem build_relabel (h : r.Textual) (derivation : ProgramDerivation) :
    (derivation.relabel r).build = derivation.build.relabel r := by
  obtain ⟨definitions, expression⟩ := derivation
  simp only [relabel, build, Program.relabel, DefinitionDerivation.buildAll_relabel h,
    DefinitionDerivation.nameCounts_relabel, DefinitionDerivation.functionCounts_relabel]
  cases expression with
  | none => rfl
  | some expression => simp [expression.build_relabel h]

theorem height_le_relabel_iff (r : Relabelling) {derivation : ProgramDerivation} {bound : Nat} :
    (∀ expression ∈ (derivation.relabel r).expressions, expression.height ≤ bound) ↔
      ∀ expression ∈ derivation.expressions, expression.height ≤ bound := by
  have hexpressions : (derivation.relabel r).expressions =
      derivation.expressions.map (·.relabel r) := by
    obtain ⟨definitions, expression⟩ := derivation
    cases expression <;> simp [relabel, expressions, DefinitionDerivation.relabel]
  rw [hexpressions, List.forall_mem_map]
  simp only [ExprDerivation.height_relabel]

theorem nodup_names_relabel_iff (h : r.Textual) {derivation : ProgramDerivation} :
    ((derivation.relabel r).definitions.map (·.name.lexeme)).Nodup ↔
      (derivation.definitions.map (·.name.lexeme)).Nodup := by
  have hnames : (derivation.relabel r).definitions.map (·.name.lexeme) =
      (derivation.definitions.map (·.name.lexeme)).map r.text := by
    simp [relabel, DefinitionDerivation.relabel, Word.relabel]
  rw [hnames, List.nodup_map_iff h.text]

end ProgramDerivation

end Derivations

/-! ## Linked programs -/

/-- **Tokens that are equal up to a relabelling make programs that are equal up to it.** -/
theorem Cursor.parse_of_relabel_eq {r r' : Relabelling} (hr : r.Textual) (hr' : r'.Textual)
    {tokens tokens' : List Token} (h : tokens'.map (·.relabel r') = tokens.map (·.relabel r))
    {program : LinkedProgram} (hparse : (Cursor.ofTokens tokens).parse = .ok program) :
    ∃ program', (Cursor.ofTokens tokens').parse = .ok program' ∧
      program'.relabel r' = program.relabel r := by
  obtain ⟨derivation, htokens, hheights, hnames, rfl⟩ := Cursor.parse_eq_ok_iff.1 hparse
  have htokens : derivation.tokens = tokens := htokens
  have hkinds : tokens'.map (·.kind) = tokens.map (·.kind) := by
    have hmap := congrArg (List.map Token.kind) h
    simpa [List.map_map, Function.comp_def, Token.relabel] using hmap
  obtain ⟨derivation', htokens'⟩ : ∃ derivation' : ProgramDerivation,
      derivation'.tokens = tokens' := by
    rw [ProgramDerivation.exists_derivation_iff, hkinds, ← htokens]
    exact derivation.isProgram_tokens
  -- The grammar is unambiguous, so the relabelled derivations are one.
  have hsame : derivation'.relabel r' = derivation.relabel r := by
    refine ProgramDerivation.tokens_injective ?_
    rw [ProgramDerivation.tokens_relabel, ProgramDerivation.tokens_relabel, htokens, htokens', h]
  refine ⟨⟨derivation'.build, derivation'.build.table⟩, ?_, ?_⟩
  · refine Cursor.parse_eq_ok_iff.2 ⟨derivation', htokens', ?_, ?_, rfl⟩
    · have hrelabelled := (ProgramDerivation.height_le_relabel_iff r).2 hheights
      rw [← hsame] at hrelabelled
      exact (ProgramDerivation.height_le_relabel_iff r').1 hrelabelled
    · have hrelabelled := (ProgramDerivation.nodup_names_relabel_iff hr).2 hnames
      rw [← hsame] at hrelabelled
      exact (ProgramDerivation.nodup_names_relabel_iff hr').1 hrelabelled
  · simp only [LinkedProgram.relabel, ← Program.table_relabel hr.faithful,
      ← Program.table_relabel hr'.faithful, ← ProgramDerivation.build_relabel hr,
      ← ProgramDerivation.build_relabel hr', hsame]

end ScopedLambda
