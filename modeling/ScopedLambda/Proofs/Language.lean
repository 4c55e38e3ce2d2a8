import ScopedLambda.Proofs.Walk

/-!
# The language of the grammar

The rules of the grammar once more, as a language over kinds alone, and the outline of a tree: what
is left of its sentence when only kinds and the texts of names are kept.

* `IsExpression`, `IsProgram` — the sentences of the grammar as lists of kinds.
* `Token.outline` — the kind of a token, and its lexeme if it is a name.
* `Expr.outline`, `Definition.outline`, `Program.outline` — the outline of the sentence of a tree,
  read off the tree.

Principal results: `exists_derivation_iff` — tokens have a derivation exactly if their kinds are a
sentence; `outline_build` — the outline of a tree is that of the tokens it was built from;
`Cursor.parse_accepts_language` — the tokens of a text make a linked program exactly if they are a
sentence of that language within the limits, and the program is its only derivation.
-/

set_option autoImplicit false

namespace ScopedLambda

/-! ## Sentences as lists of kinds -/

/-- The kinds of an expression's tokens. -/
inductive IsExpression : List TokenKind → Prop where
  | name : IsExpression [.name]
  | function {body : List TokenKind} (hbody : IsExpression body) :
    IsExpression (.lambda :: .name :: .dot :: body)
  | application {callee argument : List TokenKind} (hcallee : IsExpression callee)
    (hargument : IsExpression argument) :
    IsExpression (.openParen :: (callee ++ (argument ++ [.closeParen])))

/-- The kinds of a program's tokens: definitions, and after them at most one expression. -/
inductive IsProgram : List TokenKind → Prop where
  | nothing : IsProgram []
  | expression {kinds : List TokenKind} (hkinds : IsExpression kinds) : IsProgram kinds
  | definition {kinds rest : List TokenKind} (hkinds : IsExpression kinds)
    (hrest : IsProgram rest) : IsProgram (.keyword :: .name :: .equals :: (kinds ++ rest))

/-- Tokens that begin with a kind begin with a word of that kind. -/
theorem exists_word_of_map_kind {tokens : List Token} {kind : TokenKind} {kinds : List TokenKind}
    (h : tokens.map (·.kind) = kind :: kinds) :
    ∃ (word : Word) (rest : List Token),
      tokens = word.token kind :: rest ∧ rest.map (·.kind) = kinds := by
  obtain ⟨token, rest, rfl, rfl, hrest⟩ := List.map_eq_cons_iff.1 h
  obtain ⟨word, hword⟩ := token.exists_word
  exact ⟨word, rest, by rw [hword], hrest⟩

namespace ExprDerivation

theorem isExpression_tokens (derivation : ExprDerivation) :
    IsExpression (derivation.tokens.map (·.kind)) := by
  induction derivation with
  | name word => exact .name
  | function lambda parameter dot body ih => exact .function ih
  | application openParen callee argument closeParen ihc iha =>
    simpa [tokens] using IsExpression.application ihc iha

/-- Tokens whose kinds begin with an expression's begin with an expression. -/
theorem exists_of_isExpression {kinds : List TokenKind} (hkinds : IsExpression kinds)
    {following : List TokenKind} {all : List Token}
    (h : all.map (·.kind) = kinds ++ following) :
    ∃ (derivation : ExprDerivation) (rest : List Token),
      all = derivation.tokens ++ rest ∧ rest.map (·.kind) = following := by
  induction hkinds generalizing following all with
  | name =>
    obtain ⟨word, rest, rfl, hrest⟩ := exists_word_of_map_kind h
    exact ⟨.name word, rest, rfl, hrest⟩
  | function _ ih =>
    obtain ⟨lambda, afterLambda, rfl, hparameter⟩ := exists_word_of_map_kind h
    obtain ⟨parameter, afterParameter, rfl, hdot⟩ := exists_word_of_map_kind hparameter
    obtain ⟨dot, afterDot, rfl, hbody⟩ := exists_word_of_map_kind hdot
    obtain ⟨body, rest, rfl, hrest⟩ := ih hbody
    exact ⟨.function lambda parameter dot body, rest, rfl, hrest⟩
  | application _ _ ihc iha =>
    rw [List.cons_append, List.append_assoc, List.append_assoc] at h
    obtain ⟨openParen, afterOpen, rfl, hcallee⟩ := exists_word_of_map_kind h
    obtain ⟨callee, afterCallee, rfl, hargument⟩ := ihc hcallee
    obtain ⟨argument, afterArgument, rfl, hclose⟩ := iha hargument
    obtain ⟨closeParen, rest, rfl, hrest⟩ := exists_word_of_map_kind hclose
    refine ⟨.application openParen callee argument closeParen, rest, ?_, hrest⟩
    simp [tokens]

end ExprDerivation

namespace ProgramDerivation

theorem isProgram_tokens (derivation : ProgramDerivation) :
    IsProgram (derivation.tokens.map (·.kind)) := by
  obtain ⟨definitions, expression⟩ := derivation
  rw [tokens, List.map_append]
  induction definitions with
  | nil =>
    cases expression with
    | none => exact .nothing
    | some expression => simpa using IsProgram.expression expression.isExpression_tokens
  | cons definition rest ih =>
    simpa [DefinitionDerivation.tokens]
      using IsProgram.definition definition.expression.isExpression_tokens ih

theorem exists_of_isProgram {kinds : List TokenKind} (hkinds : IsProgram kinds)
    {all : List Token} (h : all.map (·.kind) = kinds) :
    ∃ derivation : ProgramDerivation, derivation.tokens = all := by
  induction hkinds generalizing all with
  | nothing => exact ⟨⟨[], none⟩, (List.map_eq_nil_iff.1 h).symm⟩
  | @expression kinds hkinds =>
    rw [← List.append_nil kinds] at h
    obtain ⟨expression, rest, rfl, hrest⟩ := ExprDerivation.exists_of_isExpression hkinds h
    obtain rfl := List.map_eq_nil_iff.1 hrest
    exact ⟨⟨[], some expression⟩, by simp [tokens]⟩
  | definition hkinds _ ih =>
    obtain ⟨keyword, afterKeyword, rfl, hname⟩ := exists_word_of_map_kind h
    obtain ⟨name, afterName, rfl, hequals⟩ := exists_word_of_map_kind hname
    obtain ⟨equals, afterEquals, rfl, hexpression⟩ := exists_word_of_map_kind hequals
    obtain ⟨expression, rest, rfl, hrest⟩ :=
      ExprDerivation.exists_of_isExpression hkinds hexpression
    obtain ⟨⟨definitions, trailing⟩, rfl⟩ := ih hrest
    refine ⟨⟨⟨keyword, name, equals, expression⟩ :: definitions, trailing⟩, ?_⟩
    simp [tokens, DefinitionDerivation.tokens]

/-- **Tokens have a derivation exactly if their kinds are a sentence.** -/
theorem exists_derivation_iff {all : List Token} :
    (∃ derivation : ProgramDerivation, derivation.tokens = all) ↔
      IsProgram (all.map (·.kind)) := by
  refine ⟨?_, fun h => exists_of_isProgram h rfl⟩
  rintro ⟨derivation, rfl⟩
  exact derivation.isProgram_tokens

end ProgramDerivation

/-! ## Outlines -/

/-- The kind of a token, and its lexeme if it is a name. -/
def Token.outline (token : Token) : TokenKind × Option String :=
  (token.kind, if token.kind = .name then some token.lexeme else none)

/-- The outline of an expression's sentence. -/
def Expr.outline : Expr → List (TokenKind × Option String)
  | .var name => [(.name, some name.text)]
  | .lam _ parameter body _ =>
    (.lambda, none) :: (.name, some parameter.text) :: (.dot, none) :: body.outline
  | .app callee argument _ =>
    (.openParen, none) :: (callee.outline ++ (argument.outline ++ [(.closeParen, none)]))

/-- The outline of a definition's sentence. -/
def Definition.outline (definition : Definition) : List (TokenKind × Option String) :=
  (.keyword, none) :: (.name, some definition.name.text) :: (.equals, none) ::
    definition.expression.outline

/-- The outline of a program's sentence. -/
def Program.outline (program : Program) : List (TokenKind × Option String) :=
  program.definitions.flatMap (·.outline) ++ program.expression.toList.flatMap (·.outline)

theorem ExprDerivation.outline_build (derivation : ExprDerivation) (names functions : Nat) :
    (derivation.build names functions).outline = derivation.tokens.map Token.outline := by
  induction derivation generalizing names functions with
  | name word => rfl
  | function lambda parameter dot body ih =>
    simp [build, Expr.outline, tokens, ih, Token.outline, Word.token]
  | application openParen callee argument closeParen ihc iha =>
    simp [build, Expr.outline, tokens, ihc, iha, Token.outline, Word.token]

theorem DefinitionDerivation.outline_buildAll (derivations : List DefinitionDerivation)
    (names functions : Nat) :
    (buildAll names functions derivations).flatMap (·.outline) =
      (derivations.flatMap (·.tokens)).map Token.outline := by
  induction derivations generalizing names functions with
  | nil => rfl
  | cons derivation rest ih =>
    rw [buildAll, List.flatMap_cons, List.flatMap_cons, List.map_append, ih]
    simp [build, Definition.outline, ExprDerivation.outline_build, tokens, Token.outline,
      Word.token]

/-- **The outline of a tree is the outline of the tokens it was built from.** -/
theorem ProgramDerivation.outline_build (derivation : ProgramDerivation) :
    derivation.build.outline = derivation.tokens.map Token.outline := by
  obtain ⟨definitions, expression⟩ := derivation
  rw [Program.outline, tokens, List.map_append, build, DefinitionDerivation.outline_buildAll]
  cases expression with
  | none => rfl
  | some expression => simp [ExprDerivation.outline_build]

/-! ## What is accepted -/

/-- A reading that makes a linked program has passed all tokens. -/
theorem Cursor.analyse_eq_of_parse {cursor : Cursor} {program : LinkedProgram}
    (h : cursor.parse = .ok program) :
    cursor.analyse.2 = ⟨cursor.rest.reverse ++ cursor.passed, []⟩ := by
  unfold Cursor.parse at h
  unfold Cursor.analyse at h ⊢
  split at h
  · cases h
  · rename_i whole last hread
    obtain ⟨_, _, _, _, hlast⟩ := Cursor.readProgram_ok_iff.1 hread
    exact hlast

/-- The outline of a linked program is that of its tokens. -/
theorem Cursor.outline_of_parse {tokens : List Token} {program : LinkedProgram}
    (h : (Cursor.ofTokens tokens).parse = .ok program) :
    program.outline = tokens.map Token.outline := by
  obtain ⟨derivation, htokens, _, _, rfl⟩ := Cursor.parse_eq_ok_iff.1 h
  have htokens : derivation.tokens = tokens := htokens
  rw [← htokens]
  exact derivation.outline_build

/-- What has no derivation is refused for its grammar. -/
theorem Cursor.parse_eq_grammar {cursor : Cursor}
    (h : ¬ ∃ derivation : ProgramDerivation, derivation.tokens = cursor.rest) :
    ∃ diagnostic, cursor.parse = .error (.grammar diagnostic) := by
  unfold Cursor.parse Cursor.analyse
  split
  · exact ⟨_, rfl⟩
  · rename_i program last hread
    obtain ⟨derivation, htokens, _⟩ := Cursor.readProgram_ok_iff.1 hread
    exact absurd ⟨derivation, htokens⟩ h

/-- **Exactly the language is accepted, and the program is the derivation.** Some tokens make a
linked program if and only if they have a derivation in which no expression is higher than 256 and
no two definitions have one name. They have a derivation if and only if their kinds are a sentence,
and then only one. A program that is returned is the tree built from the derivation, its outline is
that of the tokens, and the reading has ended behind the last token. -/
theorem Cursor.parse_accepts_language (tokens : List Token) :
    ((∃ program, (Cursor.ofTokens tokens).parse = .ok program) ↔
      ∃ derivation : ProgramDerivation, derivation.tokens = tokens ∧
        (∀ expression ∈ derivation.expressions, expression.height ≤ 256) ∧
        (derivation.definitions.map (·.name.lexeme)).Nodup) ∧
    ((∃ derivation : ProgramDerivation, derivation.tokens = tokens) ↔
      IsProgram (tokens.map (·.kind))) ∧
    (∀ first second : ProgramDerivation,
      first.tokens = tokens → second.tokens = tokens → first = second) ∧
    ∀ program, (Cursor.ofTokens tokens).parse = .ok program →
      (∃ derivation : ProgramDerivation,
        derivation.tokens = tokens ∧ program.toProgram = derivation.build) ∧
      program.outline = tokens.map Token.outline ∧
      (Cursor.ofTokens tokens).analyse.2 = ⟨tokens.reverse, []⟩ := by
  refine ⟨⟨?_, ?_⟩, ProgramDerivation.exists_derivation_iff, ?_, ?_⟩
  · rintro ⟨program, h⟩
    obtain ⟨derivation, htokens, hheights, hnames, _⟩ := Cursor.parse_eq_ok_iff.1 h
    exact ⟨derivation, htokens, hheights, hnames⟩
  · rintro ⟨derivation, htokens, hheights, hnames⟩
    exact ⟨_, Cursor.parse_eq_ok_iff.2 ⟨derivation, htokens, hheights, hnames, rfl⟩⟩
  · intro first second hfirst hsecond
    exact ProgramDerivation.tokens_injective (hfirst.trans hsecond.symm)
  · intro program h
    obtain ⟨derivation, htokens, _, _, rfl⟩ := Cursor.parse_eq_ok_iff.1 h
    have htokens : derivation.tokens = tokens := htokens
    refine ⟨⟨derivation, htokens, rfl⟩, Cursor.outline_of_parse h, ?_⟩
    rw [Cursor.analyse_eq_of_parse h]
    simp [Cursor.ofTokens]

end ScopedLambda
