import ScopedLambda.Proofs.Agenda

/-!
# Faults are found at the first impossible token

The reader keeps to the agenda of the grammar: every token it takes is one that the agenda goes on
with, and it ends in a fault only at a token, or at the end, that the agenda has no use for.

* `Expectation.ExactAfter` — what is said to be due is all that may follow, but for the keyword
  where definitions are complete.
* `Cursor.Passes` — from one cursor to another some tokens have been passed.
* `Agenda.Refuses` — a fault at the token to come, or at the end, with the agenda it is told by.
* `Agenda.FailsFrom` — such a fault behind some tokens that the agenda went on with.
* `Reader.Follows` — a reading that takes an agenda to another one or fails from it.
* `Cursor.faultIndex` — the index of the token at fault, found from a diagnostic and from where the
  reading has ended.

Principal results: `follows_readExpression`, `readProgram_failsFrom` — the reader keeps to the
agenda; `Refuses.exactAfter` — what is due is told exactly; `Cursor.fault_at_first_impossible_token`
— a diagnostic belongs to the first token that cannot stand where it does.
-/

set_option autoImplicit false

namespace ScopedLambda

/-! ## What is said to be due -/

namespace Expectation

/-- The kinds that an expectation names. -/
def kinds : Expectation → List TokenKind
  | token kind => [kind]
  | expression => [.name, .lambda, .openParen]
  | endOfInput => []

/-- The input may end, or go on with some kind, exactly where the expectation says so. It keeps
silent on one thing: where definitions are complete, it names the beginnings of an expression only,
and the input may end or go on with the keyword as well. -/
structure ExactAfter (due : Expectation) (before : List TokenKind) : Prop where
  next_iff : ∀ kind, IsViable (before ++ [kind]) ↔
    kind ∈ due.kinds ∨ (due = .expression ∧ IsDefinitions before ∧ kind = .keyword)
  end_iff : IsProgram before ↔
    due = .endOfInput ∨ (due = .expression ∧ IsDefinitions before)

theorem label_eq_endOfInput_iff {due : Expectation} :
    due.label = "end of input" ↔ due = .endOfInput := by
  cases due with
  | token kind => cases kind <;> decide
  | expression => decide
  | endOfInput => decide

end Expectation

namespace Agenda

/-- What is said to be due of an agenda: its first entry. -/
def due : Agenda → Expectation
  | nothing => .endOfInput
  | program => .expression
  | token kind _ => .token kind
  | expression _ _ => .expression

/-- Where definitions are complete, nothing but a program is due. -/
theorem isDefinitions_iff {agenda : Agenda} {before : List TokenKind}
    (h : program.follow? before = some agenda) :
    IsDefinitions before ↔ agenda = .program := by
  constructor
  · intro hbefore
    exact eq_program_of_isDefinitions hbefore h
  · rintro rfl
    exact tracks_of_follow? h

/-- What may come next is what the agenda can go on with. -/
theorem isViable_concat_iff {agenda : Agenda} {before : List TokenKind} {kind : TokenKind}
    (h : program.follow? before = some agenda) :
    IsViable (before ++ [kind]) ↔ kind ∈ agenda.starts := by
  rw [isViable_iff, ← exists_admits_cons_iff]
  simp only [List.append_assoc, List.singleton_append, isProgram_append_iff h]

/-- The tokens may end where nothing is due or a program. -/
theorem isProgram_iff {agenda : Agenda} {before : List TokenKind}
    (h : program.follow? before = some agenda) :
    IsProgram before ↔ agenda = .nothing ∨ agenda = .program := by
  rw [← admits_nil_iff, ← isProgram_append_iff h, List.append_nil]

/-- **The first entry of the agenda says what may follow.** -/
theorem exactAfter_due {agenda : Agenda} {before : List TokenKind}
    (h : program.follow? before = some agenda) : agenda.due.ExactAfter before where
  next_iff kind := by
    rw [isViable_concat_iff h, isDefinitions_iff h]
    cases agenda <;> simp [starts, due, Expectation.kinds, or_comm]
  end_iff := by
    rw [isProgram_iff h, isDefinitions_iff h]
    cases agenda <;> simp [due]

end Agenda

/-! ## Faults by the agenda -/

/-- From one cursor to the other the tokens `taken` have been passed. -/
structure Cursor.Passes (cursor : Cursor) (taken : List Token) (last : Cursor) : Prop where
  rest : cursor.rest = taken ++ last.rest
  passed : last.passed = taken.reverse ++ cursor.passed

namespace Cursor.Passes

variable {cursor middle last : Cursor} {first second : List Token}

theorem refl (cursor : Cursor) : cursor.Passes [] cursor := ⟨rfl, rfl⟩

theorem trans (h : cursor.Passes first middle) (h' : middle.Passes second last) :
    cursor.Passes (first ++ second) last :=
  ⟨by rw [h.rest, h'.rest, List.append_assoc], by simp [h.passed, h'.passed]⟩

theorem cons {token : Token} {passed rest : List Token}
    (h : Cursor.Passes ⟨token :: passed, rest⟩ first last) :
    Cursor.Passes ⟨passed, token :: rest⟩ (token :: first) last :=
  ⟨by rw [List.cons_append, ← h.rest], by simp [h.passed]⟩

theorem eq_of_nil (h : cursor.Passes [] last) : cursor = last := by
  obtain ⟨passed, rest⟩ := cursor
  obtain ⟨passed', rest'⟩ := last
  obtain ⟨hrest, hpassed⟩ := h
  simp_all

theorem index_eq (h : cursor.Passes first last) : last.index = cursor.index + first.length := by
  simp [index, h.passed, Nat.add_comm]

theorem tokens_eq (h : cursor.Passes first last) : last.tokens = cursor.tokens := by
  simp [tokens, h.rest, h.passed]

theorem endSpan_eq (h : cursor.Passes first last) : last.endSpan = cursor.endSpan := by
  rw [endSpan, endSpan, h.tokens_eq]

/-- The token to come is the one whose index is the cursor's. -/
theorem getElem?_tokens (h : cursor.Passes first last) :
    cursor.tokens[last.index]? = last.rest.head? := by
  rw [← h.tokens_eq, tokens, index, List.getElem?_append_right (by simp)]
  simp [List.head?_eq_getElem?]

/-- The tokens that were passed lie between the two cursors. -/
theorem drop_take_tokens (h : cursor.Passes first last) :
    (cursor.tokens.take last.index).drop cursor.index = first := by
  have htokens : cursor.tokens = (cursor.passed.reverse ++ first) ++ last.rest := by
    rw [tokens, h.rest, List.append_assoc]
  have hindex : last.index = (cursor.passed.reverse ++ first).length := by
    rw [h.index_eq]
    simp [index]
  rw [htokens, hindex, List.take_left, List.drop_left' (by simp [index])]

end Cursor.Passes

namespace Agenda

/-- A fault at the token to come, or at the end of the tokens, when the agenda is as it is. The
reading has ended at the second cursor. -/
inductive Refuses : Agenda → Cursor → GrammarFault → Cursor → Prop where
  | unexpected {agenda : Agenda} {passed rest : List Token} {token : Token}
    (hdue : agenda.due ≠ .endOfInput) (hkind : token.kind ∉ agenda.starts) :
    Refuses agenda ⟨passed, token :: rest⟩ (.unexpectedToken token agenda.due)
      ⟨token :: passed, rest⟩
  /-- A token behind the end is not passed. -/
  | superfluous {passed rest : List Token} {token : Token} :
    Refuses .nothing ⟨passed, token :: rest⟩ (.unexpectedToken token .endOfInput)
      ⟨passed, token :: rest⟩
  | missing {agenda : Agenda} {passed : List Token} (hdue : ¬ agenda.Admits []) :
    Refuses agenda ⟨passed, []⟩ (.unexpectedEnd agenda.due (Cursor.endSpan ⟨passed, []⟩))
      ⟨passed, []⟩
  | tooDeep {next : Agenda} {passed rest : List Token} {token : Token} :
    Refuses (.expression 0 next) ⟨passed, token :: rest⟩ (.nestedTooDeeply token)
      ⟨token :: passed, rest⟩

/-- A fault behind some tokens that the agenda went on with. -/
def FailsFrom (agenda : Agenda) (cursor : Cursor) (fault : GrammarFault) (last : Cursor) : Prop :=
  ∃ taken middle left, cursor.Passes taken middle ∧
    agenda.follow? (taken.map (·.kind)) = some left ∧ left.Refuses middle fault last

/-- What fails later fails. -/
theorem FailsFrom.of_follow {agenda middle : Agenda} {cursor cursor' last : Cursor}
    {taken : List Token} {fault : GrammarFault} (hpasses : cursor.Passes taken cursor')
    (hfollow : agenda.follow? (taken.map (·.kind)) = some middle)
    (h : middle.FailsFrom cursor' fault last) : agenda.FailsFrom cursor fault last := by
  obtain ⟨taken', cursor'', left, hpasses', hfollow', hrefuses⟩ := h
  refine ⟨taken ++ taken', cursor'', left, hpasses.trans hpasses', ?_, hrefuses⟩
  rw [List.map_append, follow?_append_eq_some_iff]
  exact ⟨middle, hfollow, hfollow'⟩

/-- An agenda that goes on in the same way with the next token, and that refuses it in the same way,
fails in the same way. -/
theorem FailsFrom.congr {agenda other : Agenda} {cursor last : Cursor} {token : Token}
    {rest : List Token} {fault : GrammarFault} (hrest : cursor.rest = token :: rest)
    (hstep : agenda.advance? token.kind = other.advance? token.kind)
    (hrefuses : agenda.Refuses cursor fault last → other.Refuses cursor fault last)
    (h : agenda.FailsFrom cursor fault last) : other.FailsFrom cursor fault last := by
  obtain ⟨taken, middle, left, hpasses, hfollow, hleft⟩ := h
  cases taken with
  | nil =>
    cases hfollow
    obtain rfl := hpasses.eq_of_nil
    exact ⟨[], cursor, other, .refl cursor, rfl, hrefuses hleft⟩
  | cons first taken =>
    obtain rfl : token = first := by simpa [hrest] using congrArg List.head? hpasses.rest
    refine ⟨token :: taken, middle, left, hpasses, ?_, hleft⟩
    rwa [List.map_cons, follow?, ← hstep]

end Agenda

/-! ## Readings that keep to an agenda -/

namespace Reader

open Agenda

/-- A reading takes `agenda` to `next` by the tokens it passes, or fails from `agenda`. -/
structure Follows {α : Type} (reader : Reader α) (agenda next : Agenda) : Prop where
  ok : ∀ {state value last}, reader state = .ok value last →
    ∃ taken, state.cursor.Passes taken last.cursor ∧
      agenda.follow? (taken.map (·.kind)) = some next
  error : ∀ {state fault last}, reader state = .error fault last →
    agenda.FailsFrom state.cursor fault last.cursor

theorem Follows.bind {α β : Type} {first : Reader α} {second : α → Reader β}
    {agenda middle next : Agenda} (hfirst : first.Follows agenda middle)
    (hsecond : ∀ a, (second a).Follows middle next) : (first >>= second).Follows agenda next where
  ok h := by
    obtain ⟨a, state, h₁, h₂⟩ := bind_ok_iff.1 h
    obtain ⟨taken, hpasses, hfollow⟩ := hfirst.ok h₁
    obtain ⟨taken', hpasses', hfollow'⟩ := (hsecond a).ok h₂
    refine ⟨taken ++ taken', hpasses.trans hpasses', ?_⟩
    rw [List.map_append, follow?_append_eq_some_iff]
    exact ⟨middle, hfollow, hfollow'⟩
  error h := by
    rcases bind_error_iff.1 h with h | ⟨a, state, h₁, h₂⟩
    · exact hfirst.error h
    · obtain ⟨taken, hpasses, hfollow⟩ := hfirst.ok h₁
      exact ((hsecond a).error h₂).of_follow hpasses hfollow

theorem follows_pure {α : Type} (value : α) (agenda : Agenda) :
    (pure value : Reader α).Follows agenda agenda where
  ok h := by
    obtain ⟨_, rfl⟩ := pure_ok_iff.1 h
    exact ⟨[], .refl _, rfl⟩
  error h := by cases h

theorem follows_makeName (token : Token) (agenda : Agenda) :
    (makeName token).Follows agenda agenda where
  ok h := by
    cases h
    exact ⟨[], .refl _, rfl⟩
  error h := by cases h

theorem follows_makeFunctionId (agenda : Agenda) : makeFunctionId.Follows agenda agenda where
  ok h := by
    cases h
    exact ⟨[], .refl _, rfl⟩
  error h := by cases h

/-- A reading that takes one token and then does what its kind asks for: it goes on, or the agenda
refuses the token. -/
theorem follows_take_bind {α : Type} {second : Token → Reader α} {agenda next : Agenda}
    (hend : ¬ agenda.Admits [])
    (htoken : ∀ token,
      (∃ left, agenda.advance? token.kind = some left ∧ (second token).Follows left next) ∨
        ∃ fault, second token = throw fault ∧ ∀ passed rest,
          agenda.Refuses ⟨passed, token :: rest⟩ fault ⟨token :: passed, rest⟩) :
    (take agenda.due >>= second).Follows agenda next where
  ok {state _ _} h := by
    obtain ⟨token, middle, htake, h⟩ := bind_ok_iff.1 h
    have htaken := take_ok_iff.1 htake
    have hpasses : state.cursor.Passes [token] middle.cursor := ⟨htaken.rest, htaken.passed⟩
    rcases htoken token with ⟨left, hstep, hfollows⟩ | ⟨fault, hthrow, _⟩
    · obtain ⟨taken, hpasses', hfollow⟩ := hfollows.ok h
      exact ⟨token :: taken, hpasses.trans hpasses',
        follow?_cons_eq_some_iff.2 ⟨left, hstep, hfollow⟩⟩
    · rw [hthrow] at h
      exact absurd h throw_ne_ok
  error {state _ _} h := by
    obtain ⟨⟨passed, rest⟩, names, functions⟩ := state
    cases rest with
    | nil =>
      cases h
      exact ⟨[], _, agenda, .refl _, rfl, .missing hend⟩
    | cons token rest =>
      have h : second token ⟨⟨token :: passed, rest⟩, names, functions⟩ = _ := h
      rcases htoken token with ⟨left, hstep, hfollows⟩ | ⟨fault, hthrow, hrefuses⟩
      · refine (hfollows.error h).of_follow (Cursor.Passes.refl _).cons ?_
        exact follow?_cons_eq_some_iff.2 ⟨left, hstep, rfl⟩
      · rw [hthrow] at h
        cases h
        exact ⟨[], _, agenda, .refl _, rfl, hrefuses passed rest⟩

theorem follows_expect (kind : TokenKind) (next : Agenda) :
    (expect kind).Follows (.token kind next) next := by
  refine follows_take_bind (not_admits_token_nil kind next) fun token => ?_
  by_cases hkind : token.kind = kind
  · refine .inl ⟨next, by simp [advance?, hkind], ?_⟩
    rw [if_pos hkind]
    exact follows_pure token next
  · refine .inr ⟨.unexpectedToken token (.token kind), ?_, fun passed rest => ?_⟩
    · rw [if_neg hkind]
    · exact .unexpected (by simp [due]) (by simpa [starts] using hkind)

/-- **The reader of expressions takes an expression off the agenda.** -/
theorem follows_readExpression (room : Nat) (next : Agenda) :
    (readExpression room).Follows (.expression room next) next := by
  induction room generalizing next with
  | zero =>
    refine follows_take_bind (not_admits_expression_nil 0 next) fun token => ?_
    exact .inr ⟨_, rfl, fun passed rest => .tooDeep⟩
  | succ room ih =>
    refine follows_take_bind (not_admits_expression_nil (room + 1) next) fun token => ?_
    cases hkind : token.kind with
    | name =>
      refine .inl ⟨next, rfl, ?_⟩
      exact (follows_makeName _ _).bind fun _ => follows_pure _ _
    | lambda =>
      refine .inl ⟨_, rfl, ?_⟩
      exact (follows_expect _ _).bind fun name => (follows_makeName name _).bind fun parameter =>
        (follows_expect _ _).bind fun _ => (ih _).bind fun body =>
        (follows_makeFunctionId _).bind fun id => follows_pure _ _
    | openParen =>
      refine .inl ⟨_, rfl, ?_⟩
      exact (ih _).bind fun callee => (ih _).bind fun argument => (follows_expect _ _).bind
        fun close => follows_pure _ _
    | keyword | dot | equals | closeParen =>
      refine .inr ⟨_, rfl, fun passed rest => .unexpected (by simp [due]) ?_⟩
      simp [starts, hkind]

/-- What the keyword begins, with any number of definitions due after it. -/
theorem follows_readDefinition (next : Agenda) :
    readDefinition.Follows
      (.token .keyword (.token .name (.token .equals (.expression maxNesting next)))) next :=
  (follows_expect _ _).bind fun _ => (follows_expect _ _).bind fun name =>
    (follows_makeName name _).bind fun _ => (follows_expect _ _).bind fun _ =>
    (follows_readExpression _ _).bind fun _ => follows_pure _ _

/-! ## Programs -/

theorem exists_keyword_of_peek {state : ReadState}
    (h : state.cursor.peek?.any (·.kind == .keyword) = true) :
    ∃ token rest, state.cursor.rest = token :: rest ∧ token.kind = .keyword := by
  unfold Cursor.peek? at h
  cases hrest : state.cursor.rest with
  | nil => simp [hrest] at h
  | cons token rest => exact ⟨token, rest, rfl, by simpa [hrest] using h⟩

/-- A definition that was read takes a program on the agenda to a program. -/
theorem follow?_program_of_readDefinition {definition : Definition} {state last : ReadState}
    (h : readDefinition state = .ok definition last) :
    ∃ taken, state.cursor.Passes taken last.cursor ∧
      program.follow? (taken.map (·.kind)) = some .program := by
  obtain ⟨taken, hpasses, hfollow⟩ := (follows_readDefinition .program).ok h
  refine ⟨taken, hpasses, ?_⟩
  cases taken with
  | nil => cases hfollow
  | cons token taken =>
    obtain ⟨left, hstep, hrest⟩ := follow?_cons_eq_some_iff.1 hfollow
    obtain ⟨hkind, rfl⟩ := advance?_token_eq_some_iff.1 hstep
    exact follow?_cons_eq_some_iff.2 ⟨_, by rw [hkind]; rfl, hrest⟩

/-- A definition that was begun by the keyword fails as the program does of which it is part. -/
theorem failsFrom_program_of_readDefinition {state last : ReadState} {fault : GrammarFault}
    (hkeyword : state.cursor.peek?.any (·.kind == .keyword) = true)
    (h : readDefinition state = .error fault last) :
    program.FailsFrom state.cursor fault last.cursor := by
  obtain ⟨token, rest, hrest, hkind⟩ := exists_keyword_of_peek hkeyword
  refine ((follows_readDefinition .program).error h).congr hrest (by rw [hkind]; rfl) ?_
  -- The keyword itself is no token that a definition refuses.
  obtain ⟨⟨passed, _⟩, names, functions⟩ := state
  obtain ⟨last, names', functions'⟩ := last
  cases hrest
  intro hrefuses
  cases hrefuses with
  | unexpected _ hnone => simp [starts, hkind] at hnone

/-- **The reader of definitions keeps a program on the agenda.** -/
theorem follows_readDefinitions : Follows readDefinitions .program .program where
  ok {state definitions last} h := by
    fun_induction readDefinitions state generalizing definitions last with
    | case1 => cases h
    | case2 => cases h
    | case3 state hkeyword definition middle hfirst hshorter rest last hrest ih =>
      cases h
      obtain ⟨taken, hpasses, hfollow⟩ := follow?_program_of_readDefinition hfirst
      obtain ⟨taken', hpasses', hfollow'⟩ := ih hrest
      refine ⟨taken ++ taken', hpasses.trans hpasses', ?_⟩
      rw [List.map_append, follow?_append_eq_some_iff]
      exact ⟨.program, hfollow, hfollow'⟩
    | case4 state hkeyword =>
      cases h
      exact ⟨[], .refl _, rfl⟩
  error {state fault last} h := by
    fun_induction readDefinitions state generalizing fault last with
    | case1 state hkeyword fault' last' hfirst =>
      cases h
      exact failsFrom_program_of_readDefinition hkeyword hfirst
    | case2 state hkeyword definition middle hfirst hshorter fault' last' hrest ih =>
      cases h
      obtain ⟨taken, hpasses, hfollow⟩ := follow?_program_of_readDefinition hfirst
      exact (ih hrest).of_follow hpasses hfollow
    | case3 => cases h
    | case4 => cases h

theorem follows_expectEnd : expectEnd.Follows .nothing .nothing where
  ok h := by
    obtain ⟨_, rfl⟩ := expectEnd_ok_iff.1 h
    exact ⟨[], .refl _, rfl⟩
  error {state fault last} h := by
    obtain ⟨⟨passed, rest⟩, names, functions⟩ := state
    cases rest with
    | nil => cases h
    | cons token rest =>
      cases h
      exact ⟨[], _, .nothing, .refl _, rfl, .superfluous⟩

/-- Behind the definitions, what fails is the expression that is due there or the end behind it. -/
theorem failsFrom_program_of_trailing {definitions : List Definition} {state last : ReadState}
    {fault : GrammarFault} (hkeyword : NoKeyword state.cursor.rest)
    (h : (readTrailing >>= fun expression => expectEnd >>= fun _ =>
      pure (⟨definitions, expression⟩ : Program)) state = .error fault last) :
    program.FailsFrom state.cursor fault last.cursor := by
  obtain ⟨⟨passed, rest⟩, names, functions⟩ := state
  obtain ⟨last, names', functions'⟩ := last
  cases rest with
  | nil => cases h
  | cons token rest =>
    have hfollows : ((readExpression maxNesting >>= fun expression => pure (some expression)) >>=
        fun expression => expectEnd >>= fun _ =>
          pure (⟨definitions, expression⟩ : Program)).Follows
          (.expression maxNesting .nothing) .nothing :=
      ((follows_readExpression _ _).bind fun _ => follows_pure _ _).bind fun _ =>
        follows_expectEnd.bind fun _ => follows_pure _ _
    have hkind : token.kind ≠ .keyword := hkeyword token rest rfl
    refine FailsFrom.congr rfl (advance?_program_of_ne hkind).symm ?_ (hfollows.error h)
    intro hrefuses
    cases hrefuses with
    | unexpected hdue hnone =>
      have hprogram : token.kind ∉ starts .program := by simpa [starts, hkind] using hnone
      exact .unexpected hdue hprogram

/-- **The reader of programs fails from the agenda of a program.** -/
theorem readProgram_failsFrom {state last : ReadState} {fault : GrammarFault}
    (h : Reader.readProgram state = .error fault last) :
    program.FailsFrom state.cursor fault last.cursor := by
  rcases bind_error_iff.1 h with h | ⟨definitions, middle, hdefinitions, h⟩
  · exact follows_readDefinitions.error h
  · obtain ⟨taken, hpasses, hfollow⟩ := follows_readDefinitions.ok hdefinitions
    obtain ⟨_, _, hkeyword, _⟩ := readDefinitions_ok_iff.1 hdefinitions
    exact (failsFrom_program_of_trailing hkeyword h).of_follow hpasses hfollow

end Reader

/-! ## Diagnostics -/

namespace Cursor

/-- The index of the token at fault, by what is reported and where the reading has ended: past all
tokens if some are missing; else the token to come if the input was due to end, and the last one
passed if it was not. -/
def faultIndex (cursor : Cursor) (diagnostic : Diagnostic) : Nat :=
  if diagnostic.message = "unexpected end of input" then cursor.tokens.length
  else if diagnostic.expected = some "end of input" then cursor.analyse.2.index
  else cursor.analyse.2.index - 1

/-- The kinds of the tokens from the cursor up to, and without, the one of an index. -/
def kindsUpTo (cursor : Cursor) (index : Nat) : List TokenKind :=
  ((cursor.tokens.take index).drop cursor.index).map (·.kind)

/-- What is refused for its grammar fails from the agenda of a program. -/
theorem failsFrom_of_parse {cursor : Cursor} {diagnostic : Diagnostic}
    (h : cursor.parse = .error (.grammar diagnostic)) :
    ∃ fault, diagnostic = fault.diagnostic ∧
      Agenda.program.FailsFrom cursor fault cursor.analyse.2 := by
  unfold parse at h
  unfold analyse at h ⊢
  split at h
  · rename_i fault last hread
    cases h
    refine ⟨fault, rfl, ?_⟩
    unfold readProgram at hread
    split at hread
    · cases hread
    · rename_i last' hfails
      cases hread
      exact Reader.readProgram_failsFrom hfails
  · rename_i program last hread
    -- A program that was read is linked, or refused for a name and not for its grammar.
    unfold Program.analyse at h
    split at h <;> cases h

/-- The index is that of the token at which the agenda stops. -/
theorem faultIndex_eq {agenda : Agenda} {cursor middle : Cursor} {taken : List Token}
    {fault : GrammarFault} (hpasses : cursor.Passes taken middle)
    (hrefuses : agenda.Refuses middle fault cursor.analyse.2) :
    cursor.faultIndex fault.diagnostic = middle.index := by
  unfold faultIndex
  generalize cursor.analyse.2 = last at hrefuses
  cases hrefuses with
  | unexpected hdue _ =>
    have hlabel := mt Expectation.label_eq_endOfInput_iff.1 hdue
    simp [GrammarFault.diagnostic, hlabel, index]
  | superfluous => simp [GrammarFault.diagnostic, Expectation.label]
  | missing _ =>
    rw [← hpasses.tokens_eq]
    simp [GrammarFault.diagnostic, tokens, index]
  | tooDeep =>
    have hlabel : "at most " ++ maxNesting.repr ++ " levels of nesting" ≠ "end of input" := by
      decide
    simp [GrammarFault.diagnostic, hlabel, index]

theorem kindsUpTo_index {cursor middle : Cursor} {taken : List Token}
    (hpasses : cursor.Passes taken middle) :
    cursor.kindsUpTo middle.index = taken.map (·.kind) := by
  rw [kindsUpTo, hpasses.drop_take_tokens]

/-- **A fault is found at the first impossible token.** Where some tokens are refused for their
grammar, those before the token at fault begin a sentence. An unexpected token ends that, and it is
reported as it is; where input is missing, what was to come is no sentence; where expressions are
nested too deeply, an expression is due inside 256 others, and nowhere before inside as many. What
is said to be due is just what may follow. -/
theorem fault_at_first_impossible_token {cursor : Cursor} {diagnostic : Diagnostic}
    (h : cursor.parse = .error (.grammar diagnostic)) :
    let index := cursor.faultIndex diagnostic
    let before := cursor.kindsUpTo index
    cursor.index ≤ index ∧ IsViable before ∧
    (diagnostic.message = "unexpected token" ∨ diagnostic.message = "unexpected end of input" ∨
      diagnostic.message = "expression nested too deeply") ∧
    (diagnostic.message = "unexpected token" → ∃ (token : Token) (due : Expectation),
      cursor.tokens[index]? = some token ∧ ¬ IsViable (before ++ [token.kind]) ∧
      diagnostic.found = some token.describe ∧ diagnostic.position = some token.span ∧
      diagnostic.expected = some due.label ∧ due.ExactAfter before) ∧
    (diagnostic.message = "unexpected end of input" → ∃ due : Expectation,
      index = cursor.tokens.length ∧ ¬ IsProgram before ∧
      diagnostic.found = none ∧ diagnostic.position = some cursor.endSpan ∧
      diagnostic.expected = some due.label ∧ due.ExactAfter before) ∧
    (diagnostic.message = "expression nested too deeply" → ∃ token : Token,
      cursor.tokens[index]? = some token ∧ diagnostic.found = some token.describe ∧
      diagnostic.position = some token.span ∧ ExpressionDue 256 before ∧
      ∀ shorter depth, shorter <+: before → shorter ≠ before → ExpressionDue depth shorter →
        depth < 256) := by
  obtain ⟨fault, rfl, taken, middle, left, hpasses, hfollow, hrefuses⟩ := failsFrom_of_parse h
  simp only [faultIndex_eq hpasses hrefuses, kindsUpTo_index hpasses, hpasses.getElem?_tokens]
  have hexact := Agenda.exactAfter_due hfollow
  refine ⟨?_, Agenda.isViable_of_follow? hfollow, ?_⟩
  · rw [hpasses.index_eq]
    exact Nat.le_add_right _ _
  generalize cursor.analyse.2 = last at hrefuses
  cases hrefuses with
  | @unexpected _ passed rest token hdue hkind =>
    refine ⟨.inl rfl, fun _ => ⟨token, left.due, rfl, ?_, rfl, rfl, rfl, hexact⟩,
      fun hmessage => ?_, fun hmessage => ?_⟩
    · rwa [Agenda.isViable_concat_iff hfollow]
    · simp [GrammarFault.diagnostic] at hmessage
    · simp [GrammarFault.diagnostic] at hmessage
  | @superfluous passed rest token =>
    refine ⟨.inl rfl, fun _ => ⟨token, .endOfInput, rfl, ?_, rfl, rfl, rfl, hexact⟩,
      fun hmessage => ?_, fun hmessage => ?_⟩
    · rw [Agenda.isViable_concat_iff hfollow]
      simp [Agenda.starts]
    · simp [GrammarFault.diagnostic] at hmessage
    · simp [GrammarFault.diagnostic] at hmessage
  | @missing _ passed hdue =>
    refine ⟨.inr (.inl rfl), fun hmessage => ?_,
      fun _ => ⟨left.due, ?_, ?_, rfl, ?_, rfl, hexact⟩, fun hmessage => ?_⟩
    · simp [GrammarFault.diagnostic] at hmessage
    · rw [← hpasses.tokens_eq]
      simp [tokens, index]
    · rwa [Agenda.isProgram_iff hfollow, ← Agenda.admits_nil_iff]
    · rw [← hpasses.endSpan_eq]
      rfl
    · simp [GrammarFault.diagnostic] at hmessage
  | @tooDeep next passed rest token =>
    refine ⟨.inr (.inr rfl), fun hmessage => ?_, fun hmessage => ?_,
      fun _ => ⟨token, rfl, rfl, rfl, ?_, ?_⟩⟩
    · simp [GrammarFault.diagnostic] at hmessage
    · simp [GrammarFault.diagnostic] at hmessage
    · obtain ⟨depth, rfl, hdue⟩ := Agenda.expressionDue_of_follow? hfollow
      exact hdue
    · rintro shorter depth ⟨more, hmore⟩ hne hdue
      cases more with
      | nil => exact absurd (by simpa using hmore) hne
      | cons kind more =>
        rw [← hmore] at hfollow
        exact Agenda.lt_of_expressionDue hdue hfollow

/-- Behind a first token, `(x .` is refused at the dot, where an argument is due; behind 256 opening
parentheses any token is refused, here a dot, too. -/
theorem fault_at_first_impossible_token_of_dot :
    (∃ diagnostic, (⟨[⟨.name, "y", ⟨0, 1⟩⟩], [⟨.openParen, "(", ⟨2, 3⟩⟩, ⟨.name, "x", ⟨3, 4⟩⟩,
        ⟨.dot, ".", ⟨5, 6⟩⟩]⟩ : Cursor).parse = .error (.grammar diagnostic) ∧
      IsViable [.openParen, .name] ∧ ¬ IsViable [.openParen, .name, .dot] ∧
      diagnostic.position = some ⟨5, 6⟩) ∧
    ∃ diagnostic, (ofTokens (List.replicate 256 ⟨.openParen, "(", ⟨0, 1⟩⟩ ++
        [⟨.dot, ".", ⟨256, 257⟩⟩])).parse = .error (.grammar diagnostic) ∧
      ExpressionDue 256 (List.replicate 256 .openParen) ∧
      diagnostic.position = some ⟨256, 257⟩ := by
  constructor
  · let cursor : Cursor := ⟨[⟨.name, "y", ⟨0, 1⟩⟩],
      [⟨.openParen, "(", ⟨2, 3⟩⟩, ⟨.name, "x", ⟨3, 4⟩⟩, ⟨.dot, ".", ⟨5, 6⟩⟩]⟩
    let fault : GrammarFault := .unexpectedToken ⟨.dot, ".", ⟨5, 6⟩⟩ .expression
    have hparse : cursor.parse = .error (.grammar fault.diagnostic) := by decide +kernel
    have hindex : cursor.faultIndex fault.diagnostic = 3 := by decide +kernel
    obtain ⟨_, hviable, _, hunexpected, _⟩ := fault_at_first_impossible_token hparse
    obtain ⟨token, due, htoken, hnone, _⟩ := hunexpected rfl
    rw [hindex] at hviable htoken hnone
    obtain rfl : ⟨.dot, ".", ⟨5, 6⟩⟩ = token := Option.some.inj htoken
    exact ⟨fault.diagnostic, hparse, hviable, hnone, rfl⟩
  · let cursor := ofTokens (List.replicate 256 ⟨.openParen, "(", ⟨0, 1⟩⟩ ++
      [⟨.dot, ".", ⟨256, 257⟩⟩])
    let fault : GrammarFault := .nestedTooDeeply ⟨.dot, ".", ⟨256, 257⟩⟩
    have hparse : cursor.parse = .error (.grammar fault.diagnostic) := by decide +kernel
    have hkinds : cursor.kindsUpTo (cursor.faultIndex fault.diagnostic) =
        List.replicate 256 .openParen := by decide +kernel
    obtain ⟨_, _, _, _, _, hdeep⟩ := fault_at_first_impossible_token hparse
    obtain ⟨token, _, _, _, hdue, _⟩ := hdeep rfl
    exact ⟨fault.diagnostic, hparse, hkinds ▸ hdue, rfl⟩

end Cursor

end ScopedLambda
