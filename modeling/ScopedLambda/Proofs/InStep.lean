import ScopedLambda.Proofs.Slices

/-!
# Readings in step

Two readings are in step if from related states both succeed or both fail, with what is made and
what is reported corresponding, and if they end in related states again. So a reading of tokens that
are relabelled is the relabelled reading, with its faults. It does not matter how many tokens come
before, nor from which numbers identities are counted.

* `InStep` — two computations that keep a relation between their states.
* `Relabelling.Regular` — spans are replaced in step with what is done to them, and identities are
  still counted one by one.
* `GrammarFault.relabel` — the fault that relabelled tokens have.
* `ReadState.Mirrors` — a reading under way over relabelled tokens, behind some others.
* `Reader.Carries` — a reading that is in step with another one over relabelled tokens.

Principal results: `InStep.bind` — a sequence is in step if its parts are; `carries_readExpression`,
`carries_readDefinitions` — the rules of the grammar are in step with themselves;
`sameResult_readProgram`, `Cursor.readProgram_of_rest` — relabelled tokens are read as the relabelled
program, or refused for the relabelled fault, wherever the reading begins.
-/

set_option autoImplicit false

namespace ScopedLambda

/-! ## Computations in step -/

section Results

variable {ε ε' σ σ' α α' β β' : Type}

/-- Two results of one sort: values in states that `done` relates, or faults in states that `failed`
relates. -/
inductive SameResult (done : α → σ → σ' → Prop) (failed : σ → σ' → Prop) (fault : ε → ε')
    (value : α → α') : EStateM.Result ε σ α → EStateM.Result ε' σ' α' → Prop where
  | ok {a : α} {state : σ} {state' : σ'} (hstates : done a state state') :
    SameResult done failed fault value (.ok a state) (.ok (value a) state')
  | error {e : ε} {state : σ} {state' : σ'} (hstates : failed state state') :
    SameResult done failed fault value (.error e state) (.error (fault e) state')

/-- From states that `before` relates two computations have results of one sort. -/
def InStep (before : σ → σ' → Prop) (done : α → σ → σ' → Prop) (failed : σ → σ' → Prop)
    (fault : ε → ε') (value : α → α') (first : EStateM ε σ α) (second : EStateM ε' σ' α') : Prop :=
  ∀ state state', before state state' →
    SameResult done failed fault value (first state) (second state')

variable {before failed : σ → σ' → Prop} {done : α → σ → σ' → Prop} {done' : β → σ → σ' → Prop}
  {fault : ε → ε'} {value : α → α'} {value' : β → β'}

theorem SameResult.mono {weaker : α → σ → σ' → Prop} {failed' : σ → σ' → Prop}
    {first : EStateM.Result ε σ α} {second : EStateM.Result ε' σ' α'}
    (h : SameResult done failed fault value first second)
    (hdone : ∀ a state state', done a state state' → weaker a state state')
    (hfailed : ∀ state state', failed state state' → failed' state state') :
    SameResult weaker failed' fault value first second := by
  cases h with
  | ok hstates => exact .ok (hdone _ _ _ hstates)
  | error hstates => exact .error (hfailed _ _ hstates)

theorem inStep_pure {a : α} {a' : α'} (h : a' = value a)
    (hstates : ∀ state state', before state state' → done a state state') :
    InStep before done failed fault value (pure a) (pure a') := by
  subst h
  exact fun state state' hbefore => .ok (hstates state state' hbefore)

theorem inStep_throw {e : ε} {e' : ε'} (h : e' = fault e)
    (hstates : ∀ state state', before state state' → failed state state') :
    InStep before done failed fault value (throw e) (throw e') := by
  subst h
  exact fun state state' hbefore => .error (hstates state state' hbefore)

/-- From some state a sequence has results of one sort if its parts have, the second one after what
the first made there. -/
theorem SameResult.bind {first : EStateM ε σ α} {first' : EStateM ε' σ' α'}
    {second : α → EStateM ε σ β} {second' : α' → EStateM ε' σ' β'} {state : σ} {state' : σ'}
    (hfirst : SameResult done failed fault value (first state) (first' state'))
    (hsecond : ∀ a middle middle', first state = .ok a middle →
      first' state' = .ok (value a) middle' → done a middle middle' →
        SameResult done' failed fault value' (second a middle) (second' (value a) middle')) :
    SameResult done' failed fault value' ((first >>= second) state)
      ((first' >>= second') state') := by
  show SameResult _ _ _ _ (EStateM.bind first second state) (EStateM.bind first' second' state')
  unfold EStateM.bind
  generalize hmade : first state = result at hfirst ⊢
  generalize hmade' : first' state' = result' at hfirst ⊢
  cases hfirst with
  | ok hmiddle => exact hsecond _ _ _ hmade hmade' hmiddle
  | error hmiddle => exact .error hmiddle

/-- **A sequence is in step if its parts are.** -/
theorem InStep.bind {first : EStateM ε σ α} {first' : EStateM ε' σ' α'} {second : α → EStateM ε σ β}
    {second' : α' → EStateM ε' σ' β'} (hfirst : InStep before done failed fault value first first')
    (hsecond : ∀ a, InStep (done a) done' failed fault value' (second a) (second' (value a))) :
    InStep before done' failed fault value' (first >>= second) (first' >>= second') :=
  fun state state' hbefore =>
    (hfirst state state' hbefore).bind fun a middle middle' _ _ hmiddle =>
      hsecond a middle middle' hmiddle

end Results

/-! ## Relabelled readings -/

/-- Spans are replaced in step with their merging and with the places past them, and one identity
more is still one number more. -/
structure Relabelling.Regular (r : Relabelling) : Prop where
  merge : ∀ first second, r.span (first.merge second) = (r.span first).merge (r.span second)
  past : ∀ span : Span, r.span (.emptyAt span.stop) = .emptyAt (r.span span).stop
  name : ∀ index, r.name ⟨index + 1⟩ = ⟨(r.name ⟨index⟩).index + 1⟩
  function : ∀ index, r.function ⟨index + 1⟩ = ⟨(r.function ⟨index⟩).index + 1⟩

theorem Relabelling.regular_shift (bytes names functions : Nat) :
    (shift bytes names functions).Regular where
  merge := (textual_shift bytes).span
  past _ := rfl
  name index := congrArg NameId.mk (Nat.add_right_comm index 1 names)
  function index := congrArg FunctionId.mk (Nat.add_right_comm index 1 functions)

/-- The fault with its token and its place relabelled. -/
def GrammarFault.relabel (r : Relabelling) : GrammarFault → GrammarFault
  | unexpectedToken token due => unexpectedToken (token.relabel r) due
  | unexpectedEnd due position => unexpectedEnd due (r.span position)
  | nestedTooDeeply token => nestedTooDeeply (token.relabel r)

/-- The second reading has the tokens of the first to come, relabelled; it has passed `skipped`
tokens more, and its next identities are the relabelled ones. -/
structure ReadState.Mirrors (r : Relabelling) (skipped : Nat) (state other : ReadState) : Prop where
  rest : other.cursor.rest = state.cursor.rest.map (·.relabel r)
  index : other.cursor.index = state.cursor.index + skipped
  endSpan : other.cursor.endSpan = r.span state.cursor.endSpan
  names : ⟨other.names⟩ = r.name ⟨state.names⟩
  functions : ⟨other.functions⟩ = r.function ⟨state.functions⟩

@[simp] theorem Token.kind_relabel (r : Relabelling) (token : Token) :
    (token.relabel r).kind = token.kind := rfl

@[simp] theorem Token.span_relabel (r : Relabelling) (token : Token) :
    (token.relabel r).span = r.span token.span := rfl

theorem Token.lexeme_relabel {r : Relabelling} {token : Token} (h : token.kind = .name) :
    (token.relabel r).lexeme = r.text token.lexeme := if_pos h

namespace Reader

/-- A reading of relabelled tokens that makes and reports what the other one does, relabelled. -/
def Carries {α β : Type} (r : Relabelling) (skipped : Nat) (value : α → β) (reader : Reader α)
    (other : Reader β) : Prop :=
  InStep (ReadState.Mirrors r skipped) (fun _ => ReadState.Mirrors r skipped)
    (ReadState.Mirrors r skipped) (GrammarFault.relabel r) value reader other

variable {r : Relabelling} {skipped : Nat}

theorem carries_pure {α β : Type} {value : α → β} {a : α} {b : β} (h : b = value a) :
    Carries r skipped value (pure a) (pure b) :=
  inStep_pure h fun _ _ hstates => hstates

theorem carries_throw {α β : Type} {value : α → β} {fault fault' : GrammarFault}
    (h : fault' = fault.relabel r) : Carries r skipped value (throw fault) (throw fault') :=
  inStep_throw h fun _ _ hstates => hstates

theorem carries_take (due : Expectation) :
    Carries r skipped (·.relabel r) (take due) (take due) := by
  intro state other h
  obtain ⟨⟨passed, rest⟩, names, functions⟩ := state
  obtain ⟨⟨passed', rest'⟩, names', functions'⟩ := other
  obtain rfl : rest' = rest.map (·.relabel r) := h.rest
  cases rest with
  | nil =>
    have hfault : GrammarFault.unexpectedEnd due (Cursor.endSpan ⟨passed', []⟩) =
        GrammarFault.relabel r (.unexpectedEnd due (Cursor.endSpan ⟨passed, []⟩)) := by
      rw [GrammarFault.relabel, ← h.endSpan]
      rfl
    show SameResult _ _ _ _ (.error _ _)
      (.error (GrammarFault.unexpectedEnd due (Cursor.endSpan ⟨passed', []⟩)) _)
    rw [hfault]
    exact .error h
  | cons token rest =>
    refine .ok ⟨rfl, ?_, ?_, h.names, h.functions⟩
    · have hindex : passed'.length = passed.length + skipped := h.index
      simp only [Cursor.index, List.length_cons]
      omega
    · -- Past tokens and tokens to come are together the same as before.
      have hendSpan := h.endSpan
      simpa [Cursor.endSpan, Cursor.tokens] using hendSpan

theorem carries_expect (kind : TokenKind) :
    Carries r skipped (·.relabel r) (expect kind) (expect kind) := by
  refine (carries_take _).bind fun token => ?_
  rw [Token.kind_relabel]
  split
  · exact carries_pure rfl
  · exact carries_throw rfl

theorem carries_makeName (hr : r.Regular) {token : Token} (hkind : token.kind = .name) :
    Carries r skipped (·.relabel r) (makeName token) (makeName (token.relabel r)) := by
  intro state other h
  have hname : (⟨⟨other.names⟩, (token.relabel r).lexeme, (token.relabel r).span⟩ : Name) =
      Name.relabel r ⟨⟨state.names⟩, token.lexeme, token.span⟩ := by
    rw [Name.relabel, h.names, Token.lexeme_relabel hkind, Token.span_relabel]
  show SameResult _ _ _ _ (.ok _ _) (.ok (⟨⟨other.names⟩, _, _⟩ : Name) _)
  rw [hname]
  refine .ok ⟨h.rest, h.index, h.endSpan, ?_, h.functions⟩
  rw [hr.name, ← h.names]

theorem carries_makeFunctionId (hr : r.Regular) :
    Carries r skipped r.function makeFunctionId makeFunctionId := by
  intro state other h
  show SameResult _ _ _ _ (.ok _ _) (.ok (⟨other.functions⟩ : FunctionId) _)
  rw [h.functions]
  refine .ok ⟨h.rest, h.index, h.endSpan, h.names, ?_⟩
  rw [hr.function, ← h.functions]

/-- A token that was taken as one of a kind is of that kind. -/
theorem carries_expect_bind {α β : Type} {kind : TokenKind} {value : α → β}
    {next : Token → Reader α} {next' : Token → Reader β}
    (hnext : ∀ token : Token, token.kind = kind →
      Carries r skipped value (next token) (next' (token.relabel r))) :
    Carries r skipped value (expect kind >>= next) (expect kind >>= next') :=
  fun state other h =>
    (carries_expect kind state other h).bind fun token middle middle' htaken _ hmiddle =>
      hnext token (expect_ok_iff.1 htaken).1 middle middle' hmiddle

/-- **The reader of expressions is in step with itself.** -/
theorem carries_readExpression (hr : r.Regular) (room : Nat) :
    Carries r skipped (·.relabel r) (readExpression room) (readExpression room) := by
  induction room with
  | zero => exact (carries_take _).bind fun token => carries_throw rfl
  | succ room ih =>
    refine (carries_take _).bind fun token => ?_
    rw [Token.kind_relabel, Token.span_relabel]
    cases hkind : token.kind with
    | name => exact (carries_makeName hr hkind).bind fun name => carries_pure rfl
    | lambda =>
      refine carries_expect_bind fun parameter hparameter =>
        (carries_makeName hr hparameter).bind fun name => carries_expect_bind fun dot _ =>
        ih.bind fun body => (carries_makeFunctionId hr).bind fun id => carries_pure ?_
      rw [Expr.relabel, hr.merge, Expr.span_relabel]
    | openParen =>
      refine ih.bind fun callee => ih.bind fun argument => carries_expect_bind fun close _ =>
        carries_pure ?_
      rw [Expr.relabel, hr.merge, Token.span_relabel]
    | keyword | dot | equals | closeParen => exact carries_throw rfl

theorem carries_readDefinition (hr : r.Regular) :
    Carries r skipped (·.relabel r) readDefinition readDefinition := by
  refine carries_expect_bind fun keyword _ => carries_expect_bind fun token htoken =>
    (carries_makeName hr htoken).bind fun name => carries_expect_bind fun _ _ =>
    (carries_readExpression hr _).bind fun expression => carries_pure ?_
  rw [Definition.relabel, hr.merge, Expr.span_relabel, Token.span_relabel]

/-- Both readings have the keyword to come or neither has. -/
theorem peek_keyword_mirrors {state other : ReadState} (h : state.Mirrors r skipped other) :
    other.cursor.peek?.any (·.kind == .keyword) = state.cursor.peek?.any (·.kind == .keyword) := by
  unfold Cursor.peek?
  rw [h.rest]
  cases state.cursor.rest <;> rfl

/-- Where the keyword is to come, reading definitions is reading one and then the others. -/
theorem readDefinitions_of_keyword {state : ReadState}
    (h : state.cursor.peek?.any (·.kind == .keyword) = true) :
    readDefinitions state = (readDefinition >>= fun definition => readDefinitions >>=
      fun definitions => pure (definition :: definitions) : Reader (List Definition)) state := by
  cases hfirst : readDefinition state with
  | error fault last =>
    rw [bind_error_iff.2 (.inl hfirst), readDefinitions, if_pos h]
    split <;> simp_all
  | ok definition middle =>
    cases hrest : readDefinitions middle with
    | error fault last =>
      rw [bind_error_iff.2 (.inr ⟨_, _, hfirst, bind_error_iff.2 (.inl hrest)⟩), readDefinitions,
        if_pos h]
      split <;> simp_all
    | ok definitions last =>
      rw [readDefinitions_cons hfirst hrest]
      refine (bind_ok_iff.2 ⟨definition, middle, hfirst, ?_⟩).symm
      exact bind_ok_iff.2 ⟨definitions, last, hrest, pure_ok_iff.2 ⟨rfl, rfl⟩⟩

/-- **The reader of definitions is in step with itself.** -/
theorem carries_readDefinitions (hr : r.Regular) :
    Carries r skipped (List.map (·.relabel r)) readDefinitions readDefinitions := by
  intro state other h
  -- The induction is on the tokens to come, of which a definition uses up some.
  induction hlength : state.cursor.rest.length using Nat.strongRecOn
    generalizing state other with
  | ind length ih =>
    subst hlength
    have hpeek := peek_keyword_mirrors h
    by_cases hkeyword : state.cursor.peek?.any (·.kind == .keyword) = true
    · rw [readDefinitions_of_keyword hkeyword, readDefinitions_of_keyword (hpeek.trans hkeyword)]
      refine (carries_readDefinition hr state other h).bind
        fun definition middle middle' hfirst _ hmiddle => ?_
      refine (ih _ (readDefinition_shortens hfirst) middle middle' hmiddle rfl).bind
        fun definitions last last' _ _ hlast => ?_
      exact .ok hlast
    · rw [readDefinitions, if_neg hkeyword, readDefinitions, if_neg (hpeek ▸ hkeyword)]
      exact .ok h

theorem carries_readTrailing (hr : r.Regular) :
    Carries r skipped (Option.map (·.relabel r)) readTrailing readTrailing := by
  intro state other h
  have hnext : other.cursor.hasNext = state.cursor.hasNext := by
    simp [Cursor.hasNext, h.rest]
  have hsome : Carries r skipped (Option.map (·.relabel r))
      (readExpression maxNesting >>= fun expression => pure (some expression))
      (readExpression maxNesting >>= fun expression => pure (some expression)) :=
    (carries_readExpression hr _).bind fun expression => carries_pure rfl
  rw [readTrailing_eq, readTrailing_eq, hnext]
  split
  · exact hsome state other h
  · exact carries_pure rfl state other h

theorem carries_expectEnd : Carries r skipped id expectEnd expectEnd := by
  intro state other h
  unfold expectEnd Cursor.peek?
  rw [h.rest]
  cases state.cursor.rest with
  | nil => exact .ok h
  | cons token rest => exact .error h

/-- **The reader of programs is in step with itself.** -/
theorem carries_readProgram (hr : r.Regular) :
    Carries r skipped (·.relabel r) Reader.readProgram Reader.readProgram :=
  (carries_readDefinitions hr).bind fun _ => (carries_readTrailing hr).bind fun _ =>
    carries_expectEnd.bind fun _ => carries_pure rfl

end Reader

/-! ## Readings from a cursor on -/

section Beginnings

variable {r : Relabelling} {tokens : List Token}

/-- The end of some tokens is the end of the list that they end. -/
theorem Cursor.endSpan_of_rest (hr : r.Regular) (hsome : tokens ≠ []) {cursor : Cursor}
    (hrest : cursor.rest = tokens.map (·.relabel r)) :
    cursor.endSpan = r.span (ofTokens tokens).endSpan := by
  obtain ⟨init, last, rfl⟩ := (List.eq_nil_or_concat tokens).resolve_left hsome
  simp [endSpan, Cursor.tokens, ofTokens, hrest, hr.past]

/-- A reading may begin behind other tokens and other identities. -/
theorem ReadState.Mirrors.of_rest (hr : r.Regular) (hsome : tokens ≠ []) {other : ReadState}
    (hrest : other.cursor.rest = tokens.map (·.relabel r)) (hnames : ⟨other.names⟩ = r.name ⟨0⟩)
    (hfunctions : ⟨other.functions⟩ = r.function ⟨0⟩) :
    (ReadState.start (.ofTokens tokens)).Mirrors r other.cursor.index other where
  rest := hrest
  index := (Nat.zero_add _).symm
  endSpan := Cursor.endSpan_of_rest hr hsome hrest
  names := hnames
  functions := hfunctions

/-- Where no token is to come, the empty program is read. -/
theorem Reader.readProgram_of_rest_nil {state : ReadState} (h : state.cursor.rest = []) :
    Reader.readProgram state = .ok ⟨[], none⟩ state := by
  have hdefinitions : readDefinitions state = .ok [] state :=
    readDefinitions_of_noKeyword (by simp [NoKeyword, h])
  have htrailing : readTrailing state = .ok none state :=
    readTrailing_ok_iff.2 ⟨none, by simp, fun _ => h, ReadState.advances_nil_iff.2 rfl, rfl⟩
  refine bind_ok_iff.2 ⟨_, _, hdefinitions, bind_ok_iff.2 ⟨_, _, htrailing, ?_⟩⟩
  exact bind_ok_iff.2 ⟨(), _, expectEnd_ok_iff.2 ⟨h, rfl⟩, pure_ok_iff.2 ⟨rfl, rfl⟩⟩

/-- **Relabelled tokens are read as the relabelled program, or refused for the relabelled fault, and
as many of them are passed.** -/
theorem Reader.sameResult_readProgram (hr : r.Regular) {other : ReadState}
    (hrest : other.cursor.rest = tokens.map (·.relabel r)) (hnames : ⟨other.names⟩ = r.name ⟨0⟩)
    (hfunctions : ⟨other.functions⟩ = r.function ⟨0⟩) :
    SameResult (fun _ last last' => last'.cursor.index = last.cursor.index + other.cursor.index)
      (fun last last' => last'.cursor.index = last.cursor.index + other.cursor.index)
      (GrammarFault.relabel r) (·.relabel r)
      (Reader.readProgram (.start (.ofTokens tokens))) (Reader.readProgram other) := by
  by_cases hsome : tokens = []
  · -- No token has to be there for the places past the last one to correspond.
    subst hsome
    rw [readProgram_of_rest_nil rfl, readProgram_of_rest_nil hrest]
    exact .ok (Nat.zero_add _).symm
  · have hmirrors := ReadState.Mirrors.of_rest hr hsome hrest hnames hfunctions
    exact (carries_readProgram hr _ _ hmirrors).mono (fun _ _ _ hlast => hlast.index)
      fun _ _ hlast => hlast.index

namespace Cursor

/-- An analysis ends where the reading does. -/
theorem analyse_snd (cursor : Cursor) : cursor.analyse.2 = cursor.readProgram.2 := by
  unfold analyse
  split
  all_goals
    rename_i h
    rw [h]

theorem parse_of_readProgram_error {cursor : Cursor} {fault : GrammarFault}
    (h : cursor.readProgram.1 = .error fault) :
    cursor.parse = .error (.grammar fault.diagnostic) := by
  unfold parse analyse
  split
  all_goals
    rename_i hread
    rw [hread] at h
    cases h
  rfl

theorem parse_of_readProgram_ok {cursor : Cursor} {program : Program}
    (h : cursor.readProgram.1 = .ok program) : cursor.parse = program.analyse.outcome := by
  unfold parse analyse
  split
  all_goals
    rename_i hread
    rw [hread] at h
    cases h
  rfl

/-- A program that was read is not refused for its grammar. -/
theorem exists_readProgram_error {cursor : Cursor} {diagnostic : Diagnostic}
    (h : cursor.parse = .error (.grammar diagnostic)) :
    ∃ fault, cursor.readProgram.1 = .error fault ∧ diagnostic = fault.diagnostic := by
  cases hread : cursor.readProgram.1 with
  | error fault =>
    rw [parse_of_readProgram_error hread] at h
    cases h
    exact ⟨fault, rfl, rfl⟩
  | ok program =>
    rw [parse_of_readProgram_ok hread] at h
    unfold Program.analyse at h
    split at h <;> cases h

theorem exists_readProgram_ok {cursor : Cursor}
    (h : ∀ diagnostic, cursor.parse ≠ .error (.grammar diagnostic)) :
    ∃ program, cursor.readProgram.1 = .ok program := by
  cases hread : cursor.readProgram.1 with
  | error fault => exact absurd (parse_of_readProgram_error hread) (h _)
  | ok program => exact ⟨program, rfl⟩

end Cursor

/-- **From a cursor on, relabelled tokens are read like the tokens by themselves.** -/
theorem Cursor.readProgram_of_rest (hr : r.Regular) (hname : r.name ⟨0⟩ = ⟨0⟩)
    (hfunction : r.function ⟨0⟩ = ⟨0⟩) {cursor : Cursor}
    (hrest : cursor.rest = tokens.map (·.relabel r)) :
    cursor.readProgram.1 =
        ((ofTokens tokens).readProgram.1.map (·.relabel r)).mapError (.relabel r) ∧
      cursor.readProgram.2.index = (ofTokens tokens).readProgram.2.index + cursor.index := by
  have hsame := @Reader.sameResult_readProgram r tokens hr (.start cursor) hrest hname.symm
    hfunction.symm
  unfold readProgram
  generalize Reader.readProgram (.start (ofTokens tokens)) = result at hsame ⊢
  generalize Reader.readProgram (.start cursor) = result' at hsame ⊢
  cases hsame with
  | ok hlast => exact ⟨rfl, hlast⟩
  | error hlast => exact ⟨rfl, hlast⟩

end Beginnings

end ScopedLambda
