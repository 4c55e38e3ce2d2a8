import ScopedLambda.Program.Read
import ScopedLambda.Proofs.Derivation

/-!
# The reader reads derivations

What a reading takes and makes is compared with the derivations of the grammar, rule by rule.

* `ReadState.Advances` — between two states of a reading some tokens have been taken and some names
  and functions been made.
* `advances_append_iff` — to advance over two lists of tokens is to advance over one and then over
  the other.

Principal results: `readExpression_ok_iff`, `readDefinitions_ok_iff`, `readProgram_ok_iff` — the
reader succeeds exactly on the sentences whose expressions are not too high, takes the sentence and
returns the tree that its derivation stands for.
-/

set_option autoImplicit false

namespace ScopedLambda

/-! ## Progress of a reading -/

/-- From `state` to `last` the tokens `taken` have been taken, and so many names and functions have
been made. -/
structure ReadState.Advances (state : ReadState) (taken : List Token) (names functions : Nat)
    (last : ReadState) : Prop where
  rest : state.cursor.rest = taken ++ last.cursor.rest
  passed : last.cursor.passed = taken.reverse ++ state.cursor.passed
  names : last.names = state.names + names
  functions : last.functions = state.functions + functions

namespace ReadState

theorem advances_nil_iff {state last : ReadState} :
    state.Advances [] 0 0 last ↔ state = last := by
  constructor
  · intro h
    obtain ⟨⟨passed, rest⟩, names, functions⟩ := state
    obtain ⟨⟨passed', rest'⟩, names', functions'⟩ := last
    obtain ⟨hrest, hpassed, hnames, hfunctions⟩ := h
    simp_all
  · rintro rfl
    exact ⟨rfl, rfl, rfl, rfl⟩

theorem advances_append_iff {state last : ReadState} {first second : List Token}
    {names names' functions functions' : Nat} :
    state.Advances (first ++ second) (names + names') (functions + functions') last ↔
      ∃ middle, state.Advances first names functions middle ∧
        middle.Advances second names' functions' last := by
  constructor
  · intro h
    refine ⟨⟨⟨first.reverse ++ state.cursor.passed, second ++ last.cursor.rest⟩,
      state.names + names, state.functions + functions⟩, ⟨?_, rfl, rfl, rfl⟩, ⟨rfl, ?_, ?_, ?_⟩⟩
    · rw [h.rest, List.append_assoc]
    · simp [h.passed]
    · simp [h.names, Nat.add_assoc]
    · simp [h.functions, Nat.add_assoc]
  · rintro ⟨middle, h, h'⟩
    refine ⟨?_, ?_, ?_, ?_⟩
    · rw [h.rest, h'.rest, List.append_assoc]
    · simp [h.passed, h'.passed]
    · rw [h'.names, h.names, Nat.add_assoc]
    · rw [h'.functions, h.functions, Nat.add_assoc]

theorem advances_cons_iff {state last : ReadState} {token : Token} {taken : List Token}
    {names functions : Nat} :
    state.Advances (token :: taken) names functions last ↔
      ∃ middle, state.Advances [token] 0 0 middle ∧
        middle.Advances taken names functions last := by
  have h := @advances_append_iff state last [token] taken 0 names 0 functions
  rwa [List.singleton_append, Nat.zero_add, Nat.zero_add] at h

theorem advances_concat_iff {state last : ReadState} {token : Token} {taken : List Token}
    {names functions : Nat} :
    state.Advances (taken ++ [token]) names functions last ↔
      ∃ middle, state.Advances taken names functions middle ∧
        middle.Advances [token] 0 0 last := by
  have h := @advances_append_iff state last taken [token] names 0 functions 0
  rwa [Nat.add_zero, Nat.add_zero] at h

/-- Where tokens are taken and names made, one of the names may be made first. -/
theorem advances_name_iff {state last : ReadState} {taken : List Token} {names functions : Nat} :
    state.Advances taken (names + 1) functions last ↔
      ∃ middle, state.Advances [] 1 0 middle ∧ middle.Advances taken names functions last := by
  have h := @advances_append_iff state last [] taken 1 names 0 functions
  rwa [List.nil_append, Nat.add_comm 1, Nat.zero_add] at h

/-- Where tokens are taken and functions made, one of the functions may be made last. -/
theorem advances_function_iff {state last : ReadState} {taken : List Token}
    {names functions : Nat} :
    state.Advances taken names (functions + 1) last ↔
      ∃ middle, state.Advances taken names functions middle ∧ middle.Advances [] 0 1 last := by
  have h := @advances_append_iff state last taken [] names 0 functions 1
  rwa [List.append_nil] at h

end ReadState

namespace Reader

open ReadState

/-! ## Single steps -/

/-- A sequence of two readings fails exactly if the first does or the second does after it. -/
theorem bind_error_iff {α β : Type} {first : Reader α} {second : α → Reader β}
    {state last : ReadState} {fault : GrammarFault} :
    (first >>= second) state = .error fault last ↔
      first state = .error fault last ∨
        ∃ a middle, first state = .ok a middle ∧ second a middle = .error fault last := by
  show EStateM.bind first second state = _ ↔ _
  unfold EStateM.bind
  cases first state with
  | ok a middle =>
    simp only [EStateM.Result.ok.injEq, reduceCtorEq, false_or]
    exact ⟨fun h => ⟨a, middle, ⟨rfl, rfl⟩, h⟩, fun ⟨_, _, ⟨ha, hmiddle⟩, h⟩ => ha ▸ hmiddle ▸ h⟩
  | error fault' middle => simp

theorem pure_ok_iff {α : Type} {value result : α} {state last : ReadState} :
    (pure value : Reader α) state = .ok result last ↔ value = result ∧ state = last := by
  show EStateM.Result.ok value state = _ ↔ _
  simp

theorem throw_ne_ok {α : Type} {fault : GrammarFault} {result : α} {state last : ReadState} :
    (throw fault : Reader α) state ≠ .ok result last := by
  intro h
  cases h

theorem take_ok_iff {due : Expectation} {token : Token} {state last : ReadState} :
    take due state = .ok token last ↔ state.Advances [token] 0 0 last := by
  obtain ⟨⟨passed, rest⟩, names, functions⟩ := state
  obtain ⟨⟨passed', rest'⟩, names', functions'⟩ := last
  cases rest with
  | nil =>
    constructor
    · intro h
      cases h
    · intro h
      have hrest := h.rest
      simp at hrest
  | cons head rest =>
    constructor
    · intro h
      cases h
      exact ⟨rfl, rfl, rfl, rfl⟩
    · rintro ⟨hrest, hpassed, hnames, hfunctions⟩
      simp only [List.cons_append, List.nil_append, List.cons.injEq, List.reverse_singleton,
        Nat.add_zero] at hrest hpassed hnames hfunctions
      obtain ⟨rfl, rfl⟩ := hrest
      subst hpassed hnames hfunctions
      rfl

theorem expect_ok_iff {kind : TokenKind} {token : Token} {state last : ReadState} :
    expect kind state = .ok token last ↔ token.kind = kind ∧ state.Advances [token] 0 0 last := by
  unfold expect
  rw [bind_ok_iff]
  constructor
  · rintro ⟨taken, middle, htake, hcheck⟩
    split at hcheck
    · rename_i hkind
      obtain ⟨rfl, rfl⟩ := pure_ok_iff.1 hcheck
      exact ⟨hkind, take_ok_iff.1 htake⟩
    · exact absurd hcheck throw_ne_ok
  · rintro ⟨hkind, htake⟩
    refine ⟨token, last, take_ok_iff.2 htake, ?_⟩
    rw [if_pos hkind]
    exact pure_ok_iff.2 ⟨rfl, rfl⟩

theorem makeName_ok_iff {token : Token} {name : Name} {state last : ReadState} :
    makeName token state = .ok name last ↔
      name = ⟨⟨state.names⟩, token.lexeme, token.span⟩ ∧ state.Advances [] 1 0 last := by
  obtain ⟨⟨passed, rest⟩, names, functions⟩ := state
  obtain ⟨⟨passed', rest'⟩, names', functions'⟩ := last
  constructor
  · intro h
    cases h
    exact ⟨rfl, rfl, rfl, rfl, rfl⟩
  · rintro ⟨rfl, hrest, hpassed, hnames, hfunctions⟩
    simp only [List.nil_append, List.reverse_nil, Nat.add_zero] at hrest hpassed hnames hfunctions
    subst hrest hpassed hnames hfunctions
    rfl

theorem makeFunctionId_ok_iff {id : FunctionId} {state last : ReadState} :
    makeFunctionId state = .ok id last ↔
      id = ⟨state.functions⟩ ∧ state.Advances [] 0 1 last := by
  obtain ⟨⟨passed, rest⟩, names, functions⟩ := state
  obtain ⟨⟨passed', rest'⟩, names', functions'⟩ := last
  constructor
  · intro h
    cases h
    exact ⟨rfl, rfl, rfl, rfl, rfl⟩
  · rintro ⟨rfl, hrest, hpassed, hnames, hfunctions⟩
    simp only [List.nil_append, List.reverse_nil, Nat.add_zero] at hrest hpassed hnames hfunctions
    subst hrest hpassed hnames hfunctions
    rfl

/-- A sequence that starts by taking a token of a kind. -/
theorem expect_bind_ok_iff {β : Type} {kind : TokenKind} {next : Token → Reader β} {b : β}
    {state last : ReadState} :
    (expect kind >>= next) state = .ok b last ↔
      ∃ word : Word, ∃ middle, state.Advances [word.token kind] 0 0 middle ∧
        next (word.token kind) middle = .ok b last := by
  rw [bind_ok_iff]
  constructor
  · rintro ⟨token, middle, hexpect, hnext⟩
    obtain ⟨rfl, htaken⟩ := expect_ok_iff.1 hexpect
    exact ⟨⟨token.lexeme, token.span⟩, middle, htaken, hnext⟩
  · rintro ⟨word, middle, htaken, hnext⟩
    exact ⟨word.token kind, middle, expect_ok_iff.2 ⟨rfl, htaken⟩, hnext⟩

/-- A sequence that starts by making a name of a token. -/
theorem makeName_bind_ok_iff {β : Type} {token : Token} {next : Name → Reader β} {b : β}
    {state last : ReadState} :
    (makeName token >>= next) state = .ok b last ↔
      ∃ middle, state.Advances [] 1 0 middle ∧
        next ⟨⟨state.names⟩, token.lexeme, token.span⟩ middle = .ok b last := by
  rw [bind_ok_iff]
  constructor
  · rintro ⟨name, middle, hmake, hnext⟩
    obtain ⟨rfl, hmade⟩ := makeName_ok_iff.1 hmake
    exact ⟨middle, hmade, hnext⟩
  · rintro ⟨middle, hmade, hnext⟩
    exact ⟨_, middle, makeName_ok_iff.2 ⟨rfl, hmade⟩, hnext⟩

/-! ## Expressions -/

theorem exists_derivation_of_readExpression {room : Nat} {expr : Expr} {state last : ReadState}
    (h : readExpression room state = .ok expr last) :
    ∃ derivation : ExprDerivation, derivation.height ≤ room ∧
      state.Advances derivation.tokens derivation.nameCount derivation.functionCount last ∧
      expr = derivation.build state.names state.functions := by
  induction room generalizing state last expr with
  | zero =>
    obtain ⟨token, middle, _, hthrow⟩ := bind_ok_iff.1 h
    exact absurd hthrow throw_ne_ok
  | succ room ih =>
    obtain ⟨token, state₁, htake, h⟩ := bind_ok_iff.1 h
    have hfirst := take_ok_iff.1 htake
    obtain ⟨word, hword⟩ := token.exists_word
    cases hkind : token.kind with
    | name =>
      rw [hkind] at hword h
      obtain ⟨state₂, hname, h⟩ := makeName_bind_ok_iff.1 h
      obtain ⟨rfl, rfl⟩ := pure_ok_iff.1 h
      refine ⟨.name word, by simp [ExprDerivation.height], ?_, ?_⟩
      · rw [ExprDerivation.tokens, hword]
        exact advances_cons_iff.2 ⟨state₁, hfirst, hname⟩
      · rw [ExprDerivation.build, hfirst.names, ← hword]
        rfl
    | lambda =>
      rw [hkind] at hword h
      obtain ⟨parameter, state₂, hparameter, h⟩ := expect_bind_ok_iff.1 h
      obtain ⟨state₃, hname, h⟩ := makeName_bind_ok_iff.1 h
      obtain ⟨dot, state₄, hdot, h⟩ := expect_bind_ok_iff.1 h
      obtain ⟨body, state₅, hread, h⟩ := bind_ok_iff.1 h
      obtain ⟨id, state₆, hfinish, h⟩ := bind_ok_iff.1 h
      obtain ⟨rfl, rfl⟩ := pure_ok_iff.1 h
      obtain ⟨derivation, hheight, hbody, rfl⟩ := ih hread
      obtain ⟨rfl, hid⟩ := makeFunctionId_ok_iff.1 hfinish
      refine ⟨.function word parameter dot derivation, by simp [ExprDerivation.height, hheight],
        ?_, ?_⟩
      · rw [ExprDerivation.tokens, hword]
        exact advances_cons_iff.2 ⟨_, hfirst, advances_cons_iff.2 ⟨_, hparameter,
          advances_name_iff.2 ⟨_, hname, advances_cons_iff.2 ⟨_, hdot,
          advances_function_iff.2 ⟨_, hbody, hid⟩⟩⟩⟩⟩
      · simp only [ExprDerivation.build, hbody.functions, hdot.names, hdot.functions, hname.names,
          hname.functions, hparameter.names, hparameter.functions, hfirst.names, hfirst.functions,
          Nat.add_zero, ← hword]
        rfl
    | openParen =>
      rw [hkind] at hword h
      obtain ⟨first, state₂, hreadCallee, h⟩ := bind_ok_iff.1 h
      obtain ⟨second, state₃, hreadArgument, h⟩ := bind_ok_iff.1 h
      obtain ⟨close, state₄, hclose, h⟩ := expect_bind_ok_iff.1 h
      obtain ⟨rfl, rfl⟩ := pure_ok_iff.1 h
      obtain ⟨callee, hheight, hcallee, rfl⟩ := ih hreadCallee
      obtain ⟨argument, hheight', hargument, rfl⟩ := ih hreadArgument
      refine ⟨.application word callee argument close, ?_, ?_, ?_⟩
      · simp only [ExprDerivation.height]
        omega
      · rw [ExprDerivation.tokens, hword]
        exact advances_cons_iff.2 ⟨_, hfirst, advances_append_iff.2 ⟨_, hcallee,
          advances_concat_iff.2 ⟨_, hargument, hclose⟩⟩⟩
      · simp only [ExprDerivation.build, hcallee.names, hcallee.functions, hfirst.names,
          hfirst.functions, Nat.add_zero, ← hword]
        rfl
    | keyword | dot | equals | closeParen =>
      rw [hkind] at h
      exact absurd h throw_ne_ok

/-- An expression needs room for itself. -/
theorem exists_room {derivation : ExprDerivation} {room : Nat} (h : derivation.height ≤ room) :
    ∃ smaller, room = smaller + 1 := by
  refine ⟨room - 1, ?_⟩
  cases derivation <;> simp only [ExprDerivation.height] at h <;> omega

theorem readExpression_of_derivation {room : Nat} {derivation : ExprDerivation}
    {state last : ReadState} (hheight : derivation.height ≤ room)
    (h : state.Advances derivation.tokens derivation.nameCount derivation.functionCount last) :
    readExpression room state = .ok (derivation.build state.names state.functions) last := by
  induction derivation generalizing room state last with
  | name word =>
    obtain ⟨room, rfl⟩ := exists_room hheight
    obtain ⟨state₁, hfirst, hname⟩ := advances_cons_iff.1 h
    refine bind_ok_iff.2 ⟨_, _, take_ok_iff.2 hfirst, makeName_bind_ok_iff.2 ⟨_, hname, ?_⟩⟩
    refine pure_ok_iff.2 ⟨?_, rfl⟩
    rw [ExprDerivation.build, hfirst.names]
    rfl
  | function lambda parameter dot body ih =>
    obtain ⟨room, rfl⟩ := exists_room hheight
    obtain ⟨state₁, hfirst, h⟩ := advances_cons_iff.1 h
    obtain ⟨state₂, hparameter, h⟩ := advances_cons_iff.1 h
    obtain ⟨state₃, hname, h⟩ := advances_name_iff.1 h
    obtain ⟨state₄, hdot, h⟩ := advances_cons_iff.1 h
    obtain ⟨state₅, hbody, hid⟩ := advances_function_iff.1 h
    refine bind_ok_iff.2 ⟨_, _, take_ok_iff.2 hfirst, expect_bind_ok_iff.2 ⟨_, _, hparameter,
      makeName_bind_ok_iff.2 ⟨_, hname, expect_bind_ok_iff.2 ⟨_, _, hdot, bind_ok_iff.2 ⟨_, _,
      ih (by simpa [ExprDerivation.height] using hheight) hbody, bind_ok_iff.2 ⟨_, _,
      makeFunctionId_ok_iff.2 ⟨rfl, hid⟩, ?_⟩⟩⟩⟩⟩⟩
    refine pure_ok_iff.2 ⟨?_, rfl⟩
    simp only [ExprDerivation.build, hbody.functions, hdot.names, hdot.functions, hname.names,
      hname.functions, hparameter.names, hparameter.functions, hfirst.names, hfirst.functions,
      Nat.add_zero]
    rfl
  | application openParen callee argument closeParen ihc iha =>
    obtain ⟨room, rfl⟩ := exists_room hheight
    simp only [ExprDerivation.height] at hheight
    obtain ⟨state₁, hfirst, h⟩ := advances_cons_iff.1 h
    obtain ⟨state₂, hcallee, h⟩ := advances_append_iff.1 h
    obtain ⟨state₃, hargument, hclose⟩ := advances_concat_iff.1 h
    refine bind_ok_iff.2 ⟨_, _, take_ok_iff.2 hfirst, bind_ok_iff.2 ⟨_, _,
      ihc (by omega) hcallee, bind_ok_iff.2 ⟨_, _, iha (by omega) hargument,
      expect_bind_ok_iff.2 ⟨_, _, hclose, ?_⟩⟩⟩⟩
    refine pure_ok_iff.2 ⟨?_, rfl⟩
    simp only [ExprDerivation.build, hcallee.names, hcallee.functions, hfirst.names,
      hfirst.functions, Nat.add_zero]
    rfl

/-- **The reader of expressions succeeds exactly on the expressions that are not too high.** -/
theorem readExpression_ok_iff {room : Nat} {expr : Expr} {state last : ReadState} :
    readExpression room state = .ok expr last ↔
      ∃ derivation : ExprDerivation, derivation.height ≤ room ∧
        state.Advances derivation.tokens derivation.nameCount derivation.functionCount last ∧
        expr = derivation.build state.names state.functions := by
  constructor
  · exact exists_derivation_of_readExpression
  · rintro ⟨derivation, hheight, hadvances, rfl⟩
    exact readExpression_of_derivation hheight hadvances

/-! ## Definitions -/

theorem readDefinition_ok_iff {definition : Definition} {state last : ReadState} :
    readDefinition state = .ok definition last ↔
      ∃ derivation : DefinitionDerivation, derivation.expression.height ≤ maxNesting ∧
        state.Advances derivation.tokens derivation.nameCount
          derivation.expression.functionCount last ∧
        definition = derivation.build state.names state.functions := by
  constructor
  · intro h
    obtain ⟨keyword, state₁, hkeyword, h⟩ := expect_bind_ok_iff.1 h
    obtain ⟨name, state₂, hname, h⟩ := expect_bind_ok_iff.1 h
    obtain ⟨state₃, hmade, h⟩ := makeName_bind_ok_iff.1 h
    obtain ⟨equals, state₄, hequals, h⟩ := expect_bind_ok_iff.1 h
    obtain ⟨expression, state₅, hread, h⟩ := bind_ok_iff.1 h
    obtain ⟨rfl, rfl⟩ := pure_ok_iff.1 h
    obtain ⟨derivation, hheight, hexpression, rfl⟩ := readExpression_ok_iff.1 hread
    refine ⟨⟨keyword, name, equals, derivation⟩, hheight, ?_, ?_⟩
    · exact advances_cons_iff.2 ⟨_, hkeyword, advances_cons_iff.2 ⟨_, hname,
        advances_name_iff.2 ⟨_, hmade, advances_cons_iff.2 ⟨_, hequals, hexpression⟩⟩⟩⟩
    · simp only [DefinitionDerivation.build, hequals.names, hequals.functions, hmade.names,
        hmade.functions, hname.names, hname.functions, hkeyword.names, hkeyword.functions,
        Nat.add_zero]
      rfl
  · rintro ⟨derivation, hheight, h, rfl⟩
    obtain ⟨state₁, hkeyword, h⟩ := advances_cons_iff.1 h
    obtain ⟨state₂, hname, h⟩ := advances_cons_iff.1 h
    obtain ⟨state₃, hmade, h⟩ := advances_name_iff.1 h
    obtain ⟨state₄, hequals, hexpression⟩ := advances_cons_iff.1 h
    refine expect_bind_ok_iff.2 ⟨_, _, hkeyword, expect_bind_ok_iff.2 ⟨_, _, hname,
      makeName_bind_ok_iff.2 ⟨_, hmade, expect_bind_ok_iff.2 ⟨_, _, hequals, bind_ok_iff.2 ⟨_, _,
      readExpression_of_derivation hheight hexpression, ?_⟩⟩⟩⟩⟩
    refine pure_ok_iff.2 ⟨?_, rfl⟩
    simp only [DefinitionDerivation.build, hequals.names, hequals.functions, hmade.names,
      hmade.functions, hname.names, hname.functions, hkeyword.names, hkeyword.functions,
      Nat.add_zero]
    rfl

theorem peek_keyword_eq_false_iff {state : ReadState} :
    state.cursor.peek?.any (·.kind == .keyword) = false ↔ NoKeyword state.cursor.rest := by
  unfold Cursor.peek? NoKeyword
  cases state.cursor.rest with
  | nil => simp
  | cons token rest => simp

theorem readDefinitions_of_noKeyword {state : ReadState} (h : NoKeyword state.cursor.rest) :
    readDefinitions state = .ok [] state := by
  rw [readDefinitions, if_neg (by simp [peek_keyword_eq_false_iff.2 h])]

/-- A definition begins with the keyword. -/
theorem peek_keyword_of_readDefinition {definition : Definition} {state last : ReadState}
    (h : readDefinition state = .ok definition last) :
    state.cursor.peek?.any (·.kind == .keyword) = true := by
  obtain ⟨derivation, _, hadvances, _⟩ := readDefinition_ok_iff.1 h
  simp [Cursor.peek?, hadvances.rest, DefinitionDerivation.tokens]

theorem readDefinitions_cons {definition : Definition} {definitions : List Definition}
    {state middle last : ReadState} (hfirst : readDefinition state = .ok definition middle)
    (hrest : readDefinitions middle = .ok definitions last) :
    readDefinitions state = .ok (definition :: definitions) last := by
  rw [readDefinitions, if_pos (peek_keyword_of_readDefinition hfirst)]
  split
  · rename_i heq
    simp [hfirst] at heq
  · rename_i definition' middle' heq
    rw [hfirst] at heq
    cases heq
    rw [hrest]

theorem exists_derivations_of_readDefinitions {definitions : List Definition}
    {state last : ReadState} (h : readDefinitions state = .ok definitions last) :
    ∃ derivations : List DefinitionDerivation,
      (∀ derivation ∈ derivations, derivation.expression.height ≤ maxNesting) ∧
      NoKeyword last.cursor.rest ∧
      state.Advances (derivations.flatMap (·.tokens))
        (DefinitionDerivation.nameCounts derivations)
        (DefinitionDerivation.functionCounts derivations) last ∧
      definitions = DefinitionDerivation.buildAll state.names state.functions derivations := by
  fun_induction readDefinitions state generalizing definitions last with
  | case1 => cases h
  | case2 => cases h
  | case3 state hkeyword definition middle hfirst hshorter rest last hrest ih =>
    cases h
    obtain ⟨derivation, hheight, hadvances, rfl⟩ := readDefinition_ok_iff.1 hfirst
    obtain ⟨derivations, hheights, hnext, hrests, rfl⟩ := ih hrest
    refine ⟨derivation :: derivations, by simpa using ⟨hheight, hheights⟩, hnext, ?_, ?_⟩
    · exact advances_append_iff.2 ⟨middle, hadvances, hrests⟩
    · rw [DefinitionDerivation.buildAll, hadvances.names, hadvances.functions]
  | case4 state hkeyword =>
    cases h
    refine ⟨[], by simp, ?_, advances_nil_iff.2 rfl, rfl⟩
    exact peek_keyword_eq_false_iff.1 (by simpa using hkeyword)

theorem readDefinitions_of_derivations {derivations : List DefinitionDerivation}
    {state last : ReadState}
    (hheights : ∀ derivation ∈ derivations, derivation.expression.height ≤ maxNesting)
    (hnext : NoKeyword last.cursor.rest)
    (h : state.Advances (derivations.flatMap (·.tokens))
      (DefinitionDerivation.nameCounts derivations)
      (DefinitionDerivation.functionCounts derivations) last) :
    readDefinitions state =
      .ok (DefinitionDerivation.buildAll state.names state.functions derivations) last := by
  induction derivations generalizing state with
  | nil =>
    obtain rfl := advances_nil_iff.1 h
    exact readDefinitions_of_noKeyword hnext
  | cons derivation rest ih =>
    obtain ⟨middle, hfirst, hrest⟩ := advances_append_iff.1 h
    rw [DefinitionDerivation.buildAll, ← hfirst.names, ← hfirst.functions]
    refine readDefinitions_cons (readDefinition_ok_iff.2 ⟨derivation, ?_, hfirst, rfl⟩) ?_
    · exact hheights derivation (by simp)
    · exact ih (fun other hother => hheights other (by simp [hother])) hrest

/-- **The reader of definitions succeeds exactly on the definitions up to the first token that is
not the keyword.** -/
theorem readDefinitions_ok_iff {definitions : List Definition} {state last : ReadState} :
    readDefinitions state = .ok definitions last ↔
      ∃ derivations : List DefinitionDerivation,
        (∀ derivation ∈ derivations, derivation.expression.height ≤ maxNesting) ∧
        NoKeyword last.cursor.rest ∧
        state.Advances (derivations.flatMap (·.tokens))
          (DefinitionDerivation.nameCounts derivations)
          (DefinitionDerivation.functionCounts derivations) last ∧
        definitions = DefinitionDerivation.buildAll state.names state.functions derivations := by
  constructor
  · exact exists_derivations_of_readDefinitions
  · rintro ⟨derivations, hheights, hnext, hadvances, rfl⟩
    exact readDefinitions_of_derivations hheights hnext hadvances

/-! ## Programs -/

/-- A trailing expression is read where any token is to come. -/
theorem readTrailing_eq (state : ReadState) :
    readTrailing state =
      (if state.cursor.hasNext then
        readExpression maxNesting >>= fun expression => pure (some expression)
      else pure none : Reader (Option Expr)) state := rfl

theorem readTrailing_ok_iff {result : Option Expr} {state last : ReadState} :
    readTrailing state = .ok result last ↔
      ∃ expression : Option ExprDerivation,
        (∀ derivation ∈ expression, derivation.height ≤ maxNesting) ∧
        (expression = none → state.cursor.rest = []) ∧
        state.Advances (expression.toList.flatMap (·.tokens)) (expression.elim 0 (·.nameCount))
          (expression.elim 0 (·.functionCount)) last ∧
        result = expression.map (·.build state.names state.functions) := by
  rw [readTrailing_eq]
  cases hrest : state.cursor.rest with
  | nil =>
    rw [if_neg (by simp [Cursor.hasNext, hrest]), pure_ok_iff]
    constructor
    · rintro ⟨rfl, rfl⟩
      exact ⟨none, by simp, fun _ => rfl, advances_nil_iff.2 rfl, rfl⟩
    · rintro ⟨expression, _, _, hadvances, rfl⟩
      cases expression with
      | none => exact ⟨rfl, advances_nil_iff.1 hadvances⟩
      | some derivation =>
        obtain ⟨_, _, htokens, _⟩ := derivation.exists_tokens_eq_cons
        have := hadvances.rest
        simp [hrest, htokens] at this
  | cons token rest =>
    rw [if_pos (by simp [Cursor.hasNext, hrest]), bind_ok_iff]
    constructor
    · rintro ⟨expr, middle, hread, hpure⟩
      obtain ⟨rfl, rfl⟩ := pure_ok_iff.1 hpure
      obtain ⟨derivation, hheight, hadvances, rfl⟩ := readExpression_ok_iff.1 hread
      exact ⟨some derivation, by simpa using hheight, by simp, by simpa using hadvances, rfl⟩
    · rintro ⟨expression, hheight, hnone, hadvances, rfl⟩
      cases expression with
      | none => cases hnone rfl
      | some derivation =>
        exact ⟨_, last, readExpression_of_derivation (by simpa using hheight)
          (by simpa using hadvances), pure_ok_iff.2 ⟨rfl, rfl⟩⟩

theorem expectEnd_ok_iff {result : Unit} {state last : ReadState} :
    expectEnd state = .ok result last ↔ state.cursor.rest = [] ∧ state = last := by
  unfold expectEnd Cursor.peek?
  cases state.cursor.rest with
  | nil => simp
  | cons token rest => simp

/-- The heights of all root expressions are bounded if those of the definitions and of the trailing
expression are. -/
theorem forall_expressions_iff {derivation : ProgramDerivation} {p : ExprDerivation → Prop} :
    (∀ expression ∈ derivation.expressions, p expression) ↔
      (∀ definition ∈ derivation.definitions, p definition.expression) ∧
        ∀ expression ∈ derivation.expression, p expression := by
  simp only [ProgramDerivation.expressions, List.mem_append, List.mem_map, Option.mem_toList]
  constructor
  · intro h
    exact ⟨fun definition hmem => h _ (.inl ⟨definition, hmem, rfl⟩),
      fun expression hmem => h _ (.inr hmem)⟩
  · rintro ⟨hdefinitions, htrailing⟩ expression (⟨definition, hmem, rfl⟩ | hmem)
    · exact hdefinitions definition hmem
    · exact htrailing expression hmem

/-- **The reader of programs succeeds exactly on the sentences whose expressions are not too
high.** -/
theorem readProgram_ok_iff {program : Program} {cursor : Cursor} {last : ReadState} :
    Reader.readProgram (.start cursor) = .ok program last ↔
      ∃ derivation : ProgramDerivation,
        (∀ expression ∈ derivation.expressions, expression.height ≤ maxNesting) ∧
        last.cursor.rest = [] ∧
        (ReadState.start cursor).Advances derivation.tokens derivation.nameCount
          derivation.functionCount last ∧
        program = derivation.build := by
  have hsequence : Reader.readProgram =
      (readDefinitions >>= fun definitions => readTrailing >>= fun expression =>
        expectEnd >>= fun _ => pure ⟨definitions, expression⟩ : Reader Program) := rfl
  rw [hsequence]
  constructor
  · intro h
    obtain ⟨definitions, state₁, hdefinitions, h⟩ := bind_ok_iff.1 h
    obtain ⟨trailing, state₂, htrailing, h⟩ := bind_ok_iff.1 h
    obtain ⟨_, state₃, hend, h⟩ := bind_ok_iff.1 h
    obtain ⟨rfl, rfl⟩ := pure_ok_iff.1 h
    obtain ⟨hrest, rfl⟩ := expectEnd_ok_iff.1 hend
    obtain ⟨derivations, hheights, _, htaken, rfl⟩ := readDefinitions_ok_iff.1 hdefinitions
    obtain ⟨expression, hheight, _, htaken', rfl⟩ := readTrailing_ok_iff.1 htrailing
    refine ⟨⟨derivations, expression⟩, forall_expressions_iff.2 ⟨hheights, hheight⟩, hrest,
      advances_append_iff.2 ⟨_, htaken, htaken'⟩, ?_⟩
    simp [ProgramDerivation.build, htaken.names, htaken.functions, ReadState.start]
  · rintro ⟨⟨derivations, expression⟩, hheights, hrest, hadvances, rfl⟩
    obtain ⟨hheights, hheight⟩ := forall_expressions_iff.1 hheights
    obtain ⟨state₁, htaken, htaken'⟩ := advances_append_iff.1 hadvances
    have hrest₁ : state₁.cursor.rest = expression.toList.flatMap (·.tokens) := by
      rw [htaken'.rest, hrest, List.append_nil]
    have hdefinitions := readDefinitions_of_derivations hheights
      (hrest₁ ▸ ProgramDerivation.noKeyword_trailing expression) htaken
    have htrailing := readTrailing_ok_iff.2
      ⟨expression, hheight, fun hnone => by simp [hrest₁, hnone], htaken', rfl⟩
    refine bind_ok_iff.2 ⟨_, _, hdefinitions, bind_ok_iff.2 ⟨_, _, htrailing,
      bind_ok_iff.2 ⟨(), _, expectEnd_ok_iff.2 ⟨hrest, rfl⟩, pure_ok_iff.2 ⟨?_, rfl⟩⟩⟩⟩
    simp [ProgramDerivation.build, htaken.names, htaken.functions, ReadState.start]

end Reader

/-- **A program is read from a cursor on exactly if the tokens to come are a sentence whose
expressions are not too high. Then it is the tree of the derivation, and no token is left.** -/
theorem Cursor.readProgram_ok_iff {cursor last : Cursor} {program : Program} :
    cursor.readProgram = (.ok program, last) ↔
      ∃ derivation : ProgramDerivation,
        derivation.tokens = cursor.rest ∧
        (∀ expression ∈ derivation.expressions, expression.height ≤ maxNesting) ∧
        program = derivation.build ∧ last = ⟨cursor.rest.reverse ++ cursor.passed, []⟩ := by
  constructor
  · intro h
    unfold Cursor.readProgram at h
    split at h
    · rename_i last' hread
      cases h
      obtain ⟨derivation, hheights, hrest, hadvances, rfl⟩ := Reader.readProgram_ok_iff.1 hread
      have htokens : derivation.tokens = cursor.rest := by
        have htaken : cursor.rest = derivation.tokens ++ last'.cursor.rest := hadvances.rest
        rw [htaken, hrest, List.append_nil]
      have hpassed : last'.cursor.passed = derivation.tokens.reverse ++ cursor.passed :=
        hadvances.passed
      refine ⟨derivation, htokens, hheights, rfl, ?_⟩
      rw [← htokens, ← hpassed, ← hrest]
    · cases h
  · rintro ⟨derivation, htokens, hheights, rfl, rfl⟩
    have hadvances : (ReadState.start cursor).Advances derivation.tokens derivation.nameCount
        derivation.functionCount ⟨⟨cursor.rest.reverse ++ cursor.passed, []⟩,
          derivation.nameCount, derivation.functionCount⟩ :=
      ⟨by simp [htokens, ReadState.start], by simp [htokens, ReadState.start],
        by simp [ReadState.start], by simp [ReadState.start]⟩
    have hread := Reader.readProgram_ok_iff.2 ⟨derivation, hheights, rfl, hadvances, rfl⟩
    unfold Cursor.readProgram
    rw [hread]

end ScopedLambda
