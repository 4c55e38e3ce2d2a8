import ScopedLambda.Program
import ScopedLambda.Token

/-!
# Derivations of the grammar

    program     := definition* expression?
    definition  := 'def' NAME '=' expression
    expression  := NAME | 'λ' NAME '.' expression | '(' expression expression ')'

A derivation says which rule is used at every place of a sentence and which words stand for the
terminal symbols; the kinds of these words follow from the rules. A list of tokens is a sentence
exactly if it is the token list of some derivation.

* `Word` — a lexeme and a span, of a kind that the grammar fixes.
* `ExprDerivation`, `DefinitionDerivation`, `ProgramDerivation` — one constructor for each rule.
* `tokens` — the sentence that a derivation derives.
* `build` — the tree that a derivation stands for, given how many names and functions there are
  already. A name is counted where it stands, a function when its body is complete.

Principal results: `ExprDerivation.append_tokens_inj`, `ProgramDerivation.tokens_injective` — the
grammar is unambiguous: a sentence has one derivation; `ProgramDerivation.count_keyword` — a
sentence has as many keywords as equals signs.
-/

set_option autoImplicit false

namespace ScopedLambda

/-! ## Derivations and their sentences -/

/-- A token without its kind. -/
structure Word where
  lexeme : String
  span : Span
deriving DecidableEq

/-- The word as a token of a kind. -/
def Word.token (word : Word) (kind : TokenKind) : Token := ⟨kind, word.lexeme, word.span⟩

/-- A derivation of an expression. -/
inductive ExprDerivation where
  | name (word : Word)
  | function (lambda parameter dot : Word) (body : ExprDerivation)
  | application (openParen : Word) (callee argument : ExprDerivation) (closeParen : Word)

/-- A derivation of a definition. -/
structure DefinitionDerivation where
  keyword : Word
  name : Word
  equals : Word
  expression : ExprDerivation

/-- A derivation of a program. -/
structure ProgramDerivation where
  definitions : List DefinitionDerivation
  expression : Option ExprDerivation

@[simp] theorem Word.kind_token (word : Word) (kind : TokenKind) :
    (word.token kind).kind = kind := rfl

theorem Word.token_inj {first second : Word} {kind : TokenKind} :
    first.token kind = second.token kind ↔ first = second := by
  obtain ⟨lexeme, span⟩ := first
  obtain ⟨lexeme', span'⟩ := second
  simp [token]

/-- A token is its word with its kind put back. -/
theorem Token.exists_word (token : Token) : ∃ word : Word, word.token token.kind = token :=
  ⟨⟨token.lexeme, token.span⟩, rfl⟩

namespace ExprDerivation

/-- The tokens of the derived expression. -/
def tokens : ExprDerivation → List Token
  | .name word => [word.token .name]
  | .function lambda parameter dot body =>
    lambda.token .lambda :: parameter.token .name :: dot.token .dot :: body.tokens
  | .application openParen callee argument closeParen =>
    openParen.token .openParen ::
      (callee.tokens ++ (argument.tokens ++ [closeParen.token .closeParen]))

/-- How many expressions lie inside each other at the deepest place. -/
def height : ExprDerivation → Nat
  | .name _ => 1
  | .function _ _ _ body => body.height + 1
  | .application _ callee argument _ => max callee.height argument.height + 1

/-- How many names the derived expression has. -/
def nameCount : ExprDerivation → Nat
  | .name _ => 1
  | .function _ _ _ body => body.nameCount + 1
  | .application _ callee argument _ => callee.nameCount + argument.nameCount

/-- How many functions the derived expression has. -/
def functionCount : ExprDerivation → Nat
  | .name _ => 0
  | .function _ _ _ body => body.functionCount + 1
  | .application _ callee argument _ => callee.functionCount + argument.functionCount

/-- The derived expression, when `names` names and `functions` functions come before it. -/
def build (names functions : Nat) : ExprDerivation → Expr
  | .name word => .var ⟨⟨names⟩, word.lexeme, word.span⟩
  | .function lambda parameter _ body =>
    let inner := body.build (names + 1) functions
    .lam ⟨functions + body.functionCount⟩ ⟨⟨names⟩, parameter.lexeme, parameter.span⟩ inner
      (lambda.span.merge inner.span)
  | .application openParen callee argument closeParen =>
    .app (callee.build names functions)
      (argument.build (names + callee.nameCount) (functions + callee.functionCount))
      (openParen.span.merge closeParen.span)

theorem height_build (derivation : ExprDerivation) (names functions : Nat) :
    (derivation.build names functions).height = derivation.height := by
  induction derivation generalizing names functions with
  | name word => rfl
  | function lambda parameter dot body ih => simp [build, Expr.height, height, ih]
  | application openParen callee argument closeParen ihc iha =>
    simp [build, Expr.height, height, ihc, iha]

/-- An expression begins with a token that no definition begins with. -/
theorem exists_tokens_eq_cons (derivation : ExprDerivation) :
    ∃ token rest, derivation.tokens = token :: rest ∧
      (token.kind = .name ∨ token.kind = .lambda ∨ token.kind = .openParen) := by
  cases derivation with
  | name word => exact ⟨_, _, rfl, .inl rfl⟩
  | function lambda parameter dot body => exact ⟨_, _, rfl, .inr (.inl rfl)⟩
  | application openParen callee argument closeParen => exact ⟨_, _, rfl, .inr (.inr rfl)⟩

end ExprDerivation

namespace DefinitionDerivation

/-- The tokens of the derived definition. -/
def tokens (derivation : DefinitionDerivation) : List Token :=
  derivation.keyword.token .keyword :: derivation.name.token .name ::
    derivation.equals.token .equals :: derivation.expression.tokens

/-- How many names the derived definition has. -/
def nameCount (derivation : DefinitionDerivation) : Nat := derivation.expression.nameCount + 1

/-- How many names the derived definitions have. -/
def nameCounts : List DefinitionDerivation → Nat
  | [] => 0
  | derivation :: rest => derivation.nameCount + nameCounts rest

/-- How many functions the derived definitions have. -/
def functionCounts : List DefinitionDerivation → Nat
  | [] => 0
  | derivation :: rest => derivation.expression.functionCount + functionCounts rest

/-- The derived definition. -/
def build (names functions : Nat) (derivation : DefinitionDerivation) : Definition :=
  let expression := derivation.expression.build (names + 1) functions
  ⟨⟨⟨names⟩, derivation.name.lexeme, derivation.name.span⟩, expression,
    derivation.keyword.span.merge expression.span⟩

/-- The derived definitions, one after the other. -/
def buildAll (names functions : Nat) : List DefinitionDerivation → List Definition
  | [] => []
  | derivation :: rest =>
    derivation.build names functions ::
      buildAll (names + derivation.nameCount) (functions + derivation.expression.functionCount) rest

/-- The names of the derived definitions. -/
theorem map_name_buildAll (derivations : List DefinitionDerivation) (names functions : Nat) :
    (buildAll names functions derivations).map (·.name.text) =
      derivations.map (·.name.lexeme) := by
  induction derivations generalizing names functions with
  | nil => rfl
  | cons derivation rest ih => simp [buildAll, build, ih]

end DefinitionDerivation

namespace ProgramDerivation

/-- The tokens of the derived program. -/
def tokens (derivation : ProgramDerivation) : List Token :=
  derivation.definitions.flatMap (·.tokens) ++ derivation.expression.toList.flatMap (·.tokens)

/-- The root expressions of a derivation: those of the definitions, then the trailing one. -/
def expressions (derivation : ProgramDerivation) : List ExprDerivation :=
  derivation.definitions.map (·.expression) ++ derivation.expression.toList

/-- How many names the derived program has. -/
def nameCount (derivation : ProgramDerivation) : Nat :=
  DefinitionDerivation.nameCounts derivation.definitions +
    derivation.expression.elim 0 (·.nameCount)

/-- How many functions the derived program has. -/
def functionCount (derivation : ProgramDerivation) : Nat :=
  DefinitionDerivation.functionCounts derivation.definitions +
    derivation.expression.elim 0 (·.functionCount)

/-- The derived program. -/
def build (derivation : ProgramDerivation) : Program where
  definitions := DefinitionDerivation.buildAll 0 0 derivation.definitions
  expression :=
    derivation.expression.map (·.build
      (DefinitionDerivation.nameCounts derivation.definitions)
      (DefinitionDerivation.functionCounts derivation.definitions))

end ProgramDerivation

/-! ## A sentence has one derivation -/

/-- **Whatever follows them, two expressions that begin alike are derived alike.** -/
theorem ExprDerivation.append_tokens_inj {first second : ExprDerivation} {rest rest' : List Token}
    (h : first.tokens ++ rest = second.tokens ++ rest') : first = second ∧ rest = rest' := by
  induction first generalizing second rest rest' with
  | name word =>
    cases second with
    | name word' =>
      simp only [tokens, List.cons_append, List.nil_append, List.cons.injEq,
        Word.token_inj] at h
      exact ⟨by rw [h.1], h.2⟩
    | function | application => simp [tokens, Word.token] at h
  | function lambda parameter dot body ih =>
    cases second with
    | function lambda' parameter' dot' body' =>
      simp only [tokens, List.cons_append, List.cons.injEq, Word.token_inj] at h
      obtain ⟨rfl, rfl, rfl, hbody⟩ := h
      obtain ⟨rfl, hrest⟩ := ih hbody
      exact ⟨rfl, hrest⟩
    | name | application => simp [tokens, Word.token] at h
  | application openParen callee argument closeParen ihc iha =>
    cases second with
    | application openParen' callee' argument' closeParen' =>
      simp only [tokens, List.cons_append, List.append_assoc, List.nil_append, List.cons.injEq,
        Word.token_inj] at h
      obtain ⟨rfl, hcallee⟩ := h
      obtain ⟨rfl, hargument⟩ := ihc hcallee
      obtain ⟨rfl, hclose⟩ := iha hargument
      simp only [List.cons.injEq, Word.token_inj] at hclose
      obtain ⟨rfl, hrest⟩ := hclose
      exact ⟨rfl, hrest⟩
    | name | function => simp [tokens, Word.token] at h

/-- A list of tokens that does not begin with the keyword ends every run of definitions. -/
def NoKeyword (tokens : List Token) : Prop :=
  ∀ token rest, tokens = token :: rest → token.kind ≠ .keyword

theorem ProgramDerivation.noKeyword_trailing (expression : Option ExprDerivation) :
    NoKeyword (expression.toList.flatMap (·.tokens)) := by
  intro token rest h
  cases expression with
  | none => simp at h
  | some derivation =>
    obtain ⟨first, others, htokens, hkind⟩ := derivation.exists_tokens_eq_cons
    simp only [Option.toList_some, List.flatMap_cons, List.flatMap_nil, List.append_nil, htokens,
      List.cons.injEq] at h
    rcases hkind with hkind | hkind | hkind <;> simp [← h.1, hkind]

theorem DefinitionDerivation.append_tokens_inj {first second : List DefinitionDerivation}
    {rest rest' : List Token} (hrest : NoKeyword rest) (hrest' : NoKeyword rest')
    (h : first.flatMap (·.tokens) ++ rest = second.flatMap (·.tokens) ++ rest') :
    first = second ∧ rest = rest' := by
  induction first generalizing second with
  | nil =>
    cases second with
    | nil => exact ⟨rfl, h⟩
    | cons other others => exact absurd rfl (hrest _ _ h)
  | cons derivation derivations ih =>
    cases second with
    | nil => exact absurd rfl (hrest' _ _ h.symm)
    | cons other others =>
      obtain ⟨keyword, name, equals, expression⟩ := derivation
      obtain ⟨keyword', name', equals', expression'⟩ := other
      simp only [List.flatMap_cons, List.append_assoc] at h
      simp only [tokens, List.cons_append, List.cons.injEq, Word.token_inj] at h
      obtain ⟨rfl, rfl, rfl, hexpression⟩ := h
      obtain ⟨rfl, hdefinitions⟩ := ExprDerivation.append_tokens_inj hexpression
      obtain ⟨rfl, htail⟩ := ih hdefinitions
      exact ⟨rfl, htail⟩

/-- **The grammar is unambiguous: no two derivations derive one sentence.** -/
theorem ProgramDerivation.tokens_injective {first second : ProgramDerivation}
    (h : first.tokens = second.tokens) : first = second := by
  obtain ⟨definitions, expression⟩ := first
  obtain ⟨definitions', expression'⟩ := second
  obtain ⟨rfl, htrailing⟩ := DefinitionDerivation.append_tokens_inj
    (noKeyword_trailing expression) (noKeyword_trailing expression') h
  cases expression with
  | none =>
    cases expression' with
    | none => rfl
    | some derivation =>
      obtain ⟨_, _, htokens, _⟩ := derivation.exists_tokens_eq_cons
      simp [htokens] at htrailing
  | some derivation =>
    cases expression' with
    | none =>
      obtain ⟨_, _, htokens, _⟩ := derivation.exists_tokens_eq_cons
      simp [htokens] at htrailing
    | some derivation' =>
      have hinj : derivation.tokens ++ [] = derivation'.tokens ++ [] := by simpa using htrailing
      rw [(ExprDerivation.append_tokens_inj hinj).1]

/-! ## Keywords and equals signs -/

/-- An expression has no token that only definitions have. -/
theorem ExprDerivation.count_kind_eq_zero {kind : TokenKind}
    (hkind : kind = .keyword ∨ kind = .equals) (derivation : ExprDerivation) :
    (derivation.tokens.map (·.kind)).count kind = 0 := by
  induction derivation with
  | name word => rcases hkind with rfl | rfl <;> rfl
  | function lambda parameter dot body ih => rcases hkind with rfl | rfl <;> simpa [tokens] using ih
  | application openParen callee argument closeParen ihc iha =>
    simp only [tokens, List.map_cons, List.map_append, List.count_cons, List.count_append, ihc, iha]
    rcases hkind with rfl | rfl <;> rfl

/-- **A sentence has as many keywords as equals signs.** -/
theorem ProgramDerivation.count_keyword (derivation : ProgramDerivation) :
    (derivation.tokens.map (·.kind)).count .keyword =
      (derivation.tokens.map (·.kind)).count .equals := by
  obtain ⟨definitions, expression⟩ := derivation
  simp only [tokens, List.map_append, List.count_append]
  congr 1
  · induction definitions with
    | nil => rfl
    | cons definition rest ih =>
      rw [List.flatMap_cons, List.map_append, List.count_append, List.count_append, ih,
        DefinitionDerivation.tokens]
      simp [definition.expression.count_kind_eq_zero]
  · cases expression with
    | none => rfl
    | some expression => simp [expression.count_kind_eq_zero]

end ScopedLambda
