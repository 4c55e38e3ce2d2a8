import ScopedLambda.Proofs.Language

/-!
# What is still due

Tokens that begin a sentence leave an agenda: what has to come, in this order, before the tokens may
end. The next token either takes the agenda one step further or cannot stand where it does, and what
may follow is exactly what the agenda admits.

* `IsDefinitions`, `ExpressionDue` — the beginnings of sentences after which a definition may begin,
  and those after which an expression is due, with the number of expressions that are open there.
* `IsViable` — a beginning of some sentence; the bound on nesting is ignored.
* `Agenda` — what is due, in order; an expression comes with the room that is left for it.
* `Agenda.Admits` — the kinds of token that may follow, up to the end.
* `Agenda.advance?`, `Agenda.follow?` — the agenda after one more token, and after some more.

Principal results: `admits_cons_iff` — a step takes one token off what is admitted;
`isProgram_append_iff` — after the beginning of a sentence the agenda admits just what completes it;
`exists_admits_cons_iff`, `admits_nil_iff` — the kinds that may come next, and where the tokens may
end; `expressionDue_of_follow?`, `awaitsExpression_of_follow?` — the agenda knows how many
expressions are open.
-/

set_option autoImplicit false

namespace ScopedLambda

/-! ## Beginnings of sentences -/

/-- Complete definitions, after which another one or an expression may begin. -/
inductive IsDefinitions : List TokenKind → Prop where
  | nil : IsDefinitions []
  | concat {before kinds : List TokenKind} (hbefore : IsDefinitions before)
    (hkinds : IsExpression kinds) : IsDefinitions (before ++ .keyword :: .name :: .equals :: kinds)

/-- Kinds of tokens after which an expression is due, inside so many others that are not complete
yet. -/
inductive ExpressionDue : Nat → List TokenKind → Prop where
  | trailing {before : List TokenKind} (hbefore : IsDefinitions before) : ExpressionDue 0 before
  | definition {before : List TokenKind} (hbefore : IsDefinitions before) :
    ExpressionDue 0 (before ++ [.keyword, .name, .equals])
  | body {depth : Nat} {before : List TokenKind} (hdue : ExpressionDue depth before) :
    ExpressionDue (depth + 1) (before ++ [.lambda, .name, .dot])
  | callee {depth : Nat} {before : List TokenKind} (hdue : ExpressionDue depth before) :
    ExpressionDue (depth + 1) (before ++ [.openParen])
  | argument {depth : Nat} {before callee : List TokenKind} (hdue : ExpressionDue depth before)
    (hcallee : IsExpression callee) : ExpressionDue (depth + 1) (before ++ .openParen :: callee)

/-- The beginning of some sentence. -/
def IsViable (kinds : List TokenKind) : Prop := ∃ sentence, IsProgram sentence ∧ kinds <+: sentence

theorem isViable_iff {kinds : List TokenKind} :
    IsViable kinds ↔ ∃ rest, IsProgram (kinds ++ rest) := by
  constructor
  · rintro ⟨_, hsentence, rest, rfl⟩
    exact ⟨rest, hsentence⟩
  · rintro ⟨rest, h⟩
    exact ⟨_, h, rest, rfl⟩

/-- A sentence that begins with the keyword begins with a definition. -/
theorem isProgram_keyword_cons_iff {rest : List TokenKind} :
    IsProgram (.keyword :: rest) ↔
      ∃ kinds more, rest = .name :: .equals :: (kinds ++ more) ∧ IsExpression kinds ∧
        IsProgram more := by
  constructor
  · intro h
    cases h with
    | expression hkinds => cases hkinds
    | definition hkinds hmore => exact ⟨_, _, rfl, hkinds, hmore⟩
  · rintro ⟨kinds, more, rfl, hkinds, hmore⟩
    exact .definition hkinds hmore

/-- A sentence that begins with another kind is an expression. -/
theorem isProgram_cons_iff {kind : TokenKind} {rest : List TokenKind} (hkind : kind ≠ .keyword) :
    IsProgram (kind :: rest) ↔ IsExpression (kind :: rest) := by
  constructor
  · intro h
    cases h with
    | expression hkinds => exact hkinds
    | definition => exact absurd rfl hkind
  · exact .expression

/-! ## Agendas -/

/-- What is due. At its end the tokens have to end, or a program is due. -/
inductive Agenda where
  /-- Only the end of the tokens. -/
  | nothing
  /-- Definitions, and after them at most one expression. -/
  | program
  | token (kind : TokenKind) (next : Agenda)
  /-- An expression inside which at most `room` expressions may lie in each other, itself
  included. -/
  | expression (room : Nat) (next : Agenda)

namespace Agenda

/-- The kinds of token that complete a sentence, whatever room there is for expressions. -/
def Admits : Agenda → List TokenKind → Prop
  | nothing, kinds => kinds = []
  | program, kinds => IsProgram kinds
  | token kind next, kinds => ∃ rest, kinds = kind :: rest ∧ next.Admits rest
  | expression _ next, kinds =>
    ∃ inner rest, kinds = inner ++ rest ∧ IsExpression inner ∧ next.Admits rest

/-- What is due after the first token of an expression. -/
def enter? : Nat → Agenda → TokenKind → Option Agenda
  | _ + 1, next, .name => some next
  | room + 1, next, .lambda => some (.token .name (.token .dot (.expression room next)))
  | room + 1, next, .openParen =>
    some (.expression room (.expression room (.token .closeParen next)))
  | _, _, _ => none

/-- What is due after one more token, if that token may come. -/
def advance? : Agenda → TokenKind → Option Agenda
  | nothing, _ => none
  | program, .keyword =>
    some (.token .name (.token .equals (.expression maxNesting .program)))
  | program, kind => enter? maxNesting .nothing kind
  | token due next, kind => if kind = due then some next else none
  | expression room next, kind => enter? room next kind

/-- What is due after some more tokens. -/
def follow? (agenda : Agenda) : List TokenKind → Option Agenda
  | [] => some agenda
  | kind :: kinds => (agenda.advance? kind).bind (follow? · kinds)

@[simp] theorem follow?_nil (agenda : Agenda) : agenda.follow? [] = some agenda := rfl

theorem follow?_append (agenda : Agenda) (first second : List TokenKind) :
    agenda.follow? (first ++ second) = (agenda.follow? first).bind (·.follow? second) := by
  induction first generalizing agenda with
  | nil => rfl
  | cons kind first ih =>
    simp only [List.cons_append, follow?, Option.bind_assoc]
    congr
    funext middle
    exact ih middle

theorem follow?_cons_eq_some_iff {agenda last : Agenda} {kind : TokenKind}
    {kinds : List TokenKind} :
    agenda.follow? (kind :: kinds) = some last ↔
      ∃ next, agenda.advance? kind = some next ∧ next.follow? kinds = some last :=
  Option.bind_eq_some_iff

theorem follow?_append_eq_some_iff {agenda last : Agenda} {first second : List TokenKind} :
    agenda.follow? (first ++ second) = some last ↔
      ∃ middle, agenda.follow? first = some middle ∧ middle.follow? second = some last := by
  rw [follow?_append, Option.bind_eq_some_iff]

/-- A definition is begun by the keyword and by nothing else. -/
theorem advance?_program_of_ne {kind : TokenKind} (h : kind ≠ .keyword) :
    program.advance? kind = (expression maxNesting .nothing).advance? kind := by
  cases kind <;> first | rfl | exact absurd rfl h

/-- An agenda of an expression goes on with the first token of one, if there is room. -/
theorem advance?_expression_eq_some_iff {room : Nat} {next last : Agenda} {kind : TokenKind} :
    (expression room next).advance? kind = some last ↔
      ∃ smaller, room = smaller + 1 ∧
        ((kind = .name ∧ last = next) ∨
          (kind = .lambda ∧ last = .token .name (.token .dot (.expression smaller next))) ∨
          (kind = .openParen ∧
            last = .expression smaller (.expression smaller (.token .closeParen next)))) := by
  cases room with
  | zero => simp [advance?, enter?]
  | succ room => cases kind <;> simp [advance?, enter?, eq_comm]

theorem advance?_token_eq_some_iff {due kind : TokenKind} {next last : Agenda} :
    (token due next).advance? kind = some last ↔ kind = due ∧ last = next := by
  simp [advance?, eq_comm]

/-! ## What an agenda admits -/

theorem admits_expression_name_cons {room : Nat} {next : Agenda} {kinds : List TokenKind} :
    (expression room next).Admits (.name :: kinds) ↔ next.Admits kinds := by
  constructor
  · rintro ⟨inner, rest, heq, hinner, hrest⟩
    cases hinner with
    | name =>
      obtain rfl : kinds = rest := by simpa using heq
      exact hrest
    | function | application => simp at heq
  · intro h
    exact ⟨[.name], kinds, rfl, .name, h⟩

theorem admits_expression_lambda_cons {room smaller : Nat} {next : Agenda}
    {kinds : List TokenKind} :
    (expression room next).Admits (.lambda :: kinds) ↔
      (token .name (.token .dot (.expression smaller next))).Admits kinds := by
  constructor
  · rintro ⟨inner, rest, heq, hinner, hrest⟩
    cases hinner with
    | @function body hbody =>
      obtain rfl : kinds = .name :: .dot :: (body ++ rest) := by simpa using heq
      exact ⟨_, rfl, _, rfl, body, rest, rfl, hbody, hrest⟩
    | name | application => simp at heq
  · rintro ⟨_, rfl, _, rfl, body, rest, rfl, hbody, hrest⟩
    exact ⟨.lambda :: .name :: .dot :: body, rest, rfl, .function hbody, hrest⟩

theorem admits_expression_openParen_cons {room smaller : Nat} {next : Agenda}
    {kinds : List TokenKind} :
    (expression room next).Admits (.openParen :: kinds) ↔
      (expression smaller (.expression smaller (.token .closeParen next))).Admits kinds := by
  constructor
  · rintro ⟨inner, rest, heq, hinner, hrest⟩
    cases hinner with
    | @application callee argument hcallee hargument =>
      obtain rfl : kinds = callee ++ (argument ++ .closeParen :: rest) := by simpa using heq
      exact ⟨callee, _, rfl, hcallee, argument, _, rfl, hargument, rest, rfl, hrest⟩
    | name | function => simp at heq
  · rintro ⟨callee, _, rfl, hcallee, argument, _, rfl, hargument, rest, rfl, hrest⟩
    refine ⟨.openParen :: (callee ++ (argument ++ [.closeParen])), rest, ?_,
      .application hcallee hargument, hrest⟩
    simp

theorem admits_expression_cons_iff {room : Nat} {next last : Agenda} {kind : TokenKind}
    (h : (expression room next).advance? kind = some last) (kinds : List TokenKind) :
    (expression room next).Admits (kind :: kinds) ↔ last.Admits kinds := by
  obtain ⟨smaller, _, ⟨rfl, rfl⟩ | ⟨rfl, rfl⟩ | ⟨rfl, rfl⟩⟩ := advance?_expression_eq_some_iff.1 h
  · exact admits_expression_name_cons
  · exact admits_expression_lambda_cons
  · exact admits_expression_openParen_cons

/-- Where no definition begins, a program is an expression or nothing. -/
theorem admits_program_cons_iff {kind : TokenKind} (h : kind ≠ .keyword)
    (kinds : List TokenKind) :
    program.Admits (kind :: kinds) ↔ (expression maxNesting .nothing).Admits (kind :: kinds) := by
  refine (isProgram_cons_iff h).trans ⟨?_, ?_⟩
  · intro hkinds
    exact ⟨_, [], (List.append_nil _).symm, hkinds, rfl⟩
  · rintro ⟨inner, rest, heq, hinner, hrest⟩
    obtain rfl : rest = [] := hrest
    rw [heq, List.append_nil]
    exact hinner

/-- **A step of the agenda takes one token off what it admits.** -/
theorem admits_cons_iff {agenda next : Agenda} {kind : TokenKind}
    (h : agenda.advance? kind = some next) (kinds : List TokenKind) :
    agenda.Admits (kind :: kinds) ↔ next.Admits kinds := by
  cases agenda with
  | nothing => cases h
  | token due rest =>
    obtain ⟨rfl, rfl⟩ := advance?_token_eq_some_iff.1 h
    simp [Admits]
  | expression room rest => exact admits_expression_cons_iff h kinds
  | program =>
    by_cases hkind : kind = .keyword
    · subst hkind
      cases h
      refine isProgram_keyword_cons_iff.trans ⟨?_, ?_⟩
      · rintro ⟨inner, more, rfl, hinner, hmore⟩
        exact ⟨_, rfl, _, rfl, inner, more, rfl, hinner, hmore⟩
      · rintro ⟨_, rfl, _, rfl, inner, more, rfl, hinner, hmore⟩
        exact ⟨inner, more, rfl, hinner, hmore⟩
    · rw [advance?_program_of_ne hkind] at h
      exact (admits_program_cons_iff hkind kinds).trans (admits_expression_cons_iff h kinds)

theorem admits_append_iff {agenda next : Agenda} {kinds : List TokenKind}
    (h : agenda.follow? kinds = some next) (rest : List TokenKind) :
    agenda.Admits (kinds ++ rest) ↔ next.Admits rest := by
  induction kinds generalizing agenda with
  | nil =>
    cases h
    rfl
  | cons kind kinds ih =>
    obtain ⟨middle, hstep, hrest⟩ := follow?_cons_eq_some_iff.1 h
    exact (admits_cons_iff hstep _).trans (ih hrest)

/-- **After the beginning of a sentence the agenda admits just what completes it.** -/
theorem isProgram_append_iff {agenda : Agenda} {before : List TokenKind}
    (h : program.follow? before = some agenda) (rest : List TokenKind) :
    IsProgram (before ++ rest) ↔ agenda.Admits rest :=
  admits_append_iff h rest

/-- Every agenda can be met. -/
theorem exists_admits (agenda : Agenda) : ∃ kinds, agenda.Admits kinds := by
  induction agenda with
  | nothing => exact ⟨[], rfl⟩
  | program => exact ⟨[], .nothing⟩
  | token kind next ih =>
    obtain ⟨rest, hrest⟩ := ih
    exact ⟨kind :: rest, rest, rfl, hrest⟩
  | expression room next ih =>
    obtain ⟨rest, hrest⟩ := ih
    exact ⟨.name :: rest, [.name], rest, rfl, .name, hrest⟩

theorem isViable_of_follow? {agenda : Agenda} {before : List TokenKind}
    (h : program.follow? before = some agenda) : IsViable before := by
  obtain ⟨rest, hrest⟩ := agenda.exists_admits
  exact isViable_iff.2 ⟨rest, (isProgram_append_iff h rest).2 hrest⟩

/-- The kinds with which an agenda can go on. -/
def starts : Agenda → List TokenKind
  | nothing => []
  | program => [.keyword, .name, .lambda, .openParen]
  | token kind _ => [kind]
  | expression _ _ => [.name, .lambda, .openParen]

theorem exists_admits_expression_cons_iff {room : Nat} {next : Agenda} {kind : TokenKind} :
    (∃ kinds, (expression room next).Admits (kind :: kinds)) ↔
      kind = .name ∨ kind = .lambda ∨ kind = .openParen := by
  constructor
  · rintro ⟨kinds, inner, rest, heq, hinner, _⟩
    cases hinner <;> simp_all
  · -- Whatever room there is, what begins an expression leaves an agenda that can be met.
    rintro (rfl | rfl | rfl)
    · obtain ⟨kinds, h⟩ := next.exists_admits
      exact ⟨kinds, admits_expression_name_cons.2 h⟩
    · obtain ⟨kinds, h⟩ := exists_admits (token .name (.token .dot (.expression room next)))
      exact ⟨kinds, admits_expression_lambda_cons.2 h⟩
    · obtain ⟨kinds, h⟩ :=
        exists_admits (expression room (.expression room (.token .closeParen next)))
      exact ⟨kinds, admits_expression_openParen_cons.2 h⟩

/-- **The kinds that may come next are those with which the agenda can go on.** -/
theorem exists_admits_cons_iff {agenda : Agenda} {kind : TokenKind} :
    (∃ kinds, agenda.Admits (kind :: kinds)) ↔ kind ∈ agenda.starts := by
  cases agenda with
  | nothing => simp [Admits, starts]
  | token due next =>
    have hnext := next.exists_admits
    simp only [Admits, starts, List.mem_singleton, List.cons.injEq]
    constructor
    · rintro ⟨_, _, ⟨rfl, _⟩, _⟩
      rfl
    · rintro rfl
      obtain ⟨kinds, h⟩ := hnext
      exact ⟨kinds, kinds, ⟨rfl, rfl⟩, h⟩
  | expression room next =>
    rw [exists_admits_expression_cons_iff]
    simp [starts]
  | program =>
    by_cases hkind : kind = .keyword
    · subst hkind
      refine iff_of_true ⟨[.name, .equals, .name], ?_⟩ (by simp [starts])
      exact isProgram_keyword_cons_iff.2 ⟨[.name], [], rfl, .name, .nothing⟩
    · simp only [admits_program_cons_iff hkind, exists_admits_expression_cons_iff]
      simp [starts, hkind]

theorem not_admits_token_nil (kind : TokenKind) (next : Agenda) :
    ¬ (token kind next).Admits [] := by
  rintro ⟨rest, heq, _⟩
  cases heq

theorem not_admits_expression_nil (room : Nat) (next : Agenda) :
    ¬ (expression room next).Admits [] := by
  rintro ⟨inner, rest, heq, hinner, _⟩
  cases hinner <;> simp at heq

/-- **The tokens may end where nothing is due or a whole program.** -/
theorem admits_nil_iff {agenda : Agenda} :
    agenda.Admits [] ↔ agenda = .nothing ∨ agenda = .program := by
  cases agenda with
  | nothing => simp [Admits]
  | program => exact iff_of_true IsProgram.nothing (by simp)
  | token kind next => simp [not_admits_token_nil]
  | expression room next => simp [not_admits_expression_nil]

/-! ## Open expressions -/

/-- An expression that is complete has been taken off the agenda. -/
theorem eq_of_follow?_expression {kinds : List TokenKind} (hkinds : IsExpression kinds)
    {room : Nat} {next last : Agenda} (h : (expression room next).follow? kinds = some last) :
    last = next := by
  induction hkinds generalizing room next last with
  | name =>
    obtain ⟨middle, hstep, hlast⟩ := follow?_cons_eq_some_iff.1 h
    cases hlast
    obtain ⟨_, _, hcases⟩ := advance?_expression_eq_some_iff.1 hstep
    simpa using hcases
  | function _ ih =>
    obtain ⟨agenda₁, hlambda, h⟩ := follow?_cons_eq_some_iff.1 h
    obtain ⟨agenda₂, hname, h⟩ := follow?_cons_eq_some_iff.1 h
    obtain ⟨agenda₃, hdot, h⟩ := follow?_cons_eq_some_iff.1 h
    obtain ⟨smaller, _, hcases⟩ := advance?_expression_eq_some_iff.1 hlambda
    obtain rfl : agenda₁ = .token .name (.token .dot (.expression smaller next)) := by
      simpa using hcases
    obtain ⟨_, rfl⟩ := advance?_token_eq_some_iff.1 hname
    obtain ⟨_, rfl⟩ := advance?_token_eq_some_iff.1 hdot
    exact ih h
  | application _ _ ihc iha =>
    obtain ⟨agenda₁, hopen, h⟩ := follow?_cons_eq_some_iff.1 h
    obtain ⟨agenda₂, hcallee, h⟩ := follow?_append_eq_some_iff.1 h
    obtain ⟨agenda₃, hargument, h⟩ := follow?_append_eq_some_iff.1 h
    obtain ⟨agenda₄, hclose, hlast⟩ := follow?_cons_eq_some_iff.1 h
    cases hlast
    obtain ⟨smaller, _, hcases⟩ := advance?_expression_eq_some_iff.1 hopen
    obtain rfl :
        agenda₁ = .expression smaller (.expression smaller (.token .closeParen next)) := by
      simpa using hcases
    obtain rfl := ihc hcallee
    obtain rfl := iha hargument
    exact (advance?_token_eq_some_iff.1 hclose).2

/-- The agenda knows what came before: where a program is due there are complete definitions, and an
expression has as much room as those around it leave. -/
def Tracks : Agenda → List TokenKind → Prop
  | nothing, _ => True
  | program, before => IsDefinitions before
  | token kind next, before => next.Tracks (before ++ [kind])
  | expression room next, before =>
    (∃ depth, depth + room = maxNesting ∧ ExpressionDue depth before) ∧
      ∀ kinds, IsExpression kinds → next.Tracks (before ++ kinds)

/-- The step lemma of `Tracks`, where an expression begins. -/
theorem Tracks.enter {room : Nat} {next last : Agenda} {before : List TokenKind} {kind : TokenKind}
    (htracks : (expression room next).Tracks before)
    (h : (expression room next).advance? kind = some last) : last.Tracks (before ++ [kind]) := by
  obtain ⟨⟨depth, hdepth, hdue⟩, hnext⟩ := htracks
  obtain ⟨smaller, rfl, ⟨rfl, rfl⟩ | ⟨rfl, rfl⟩ | ⟨rfl, rfl⟩⟩ :=
    advance?_expression_eq_some_iff.1 h
  · exact hnext _ .name
  · simp only [Tracks, List.append_assoc, List.cons_append, List.nil_append]
    refine ⟨⟨depth + 1, by omega, hdue.body⟩, ?_⟩
    intro body hbody
    exact hnext _ (.function hbody)
  · simp only [Tracks, List.append_assoc, List.cons_append, List.nil_append]
    refine ⟨⟨depth + 1, by omega, hdue.callee⟩, ?_⟩
    intro callee hcallee
    refine ⟨⟨depth + 1, by omega, hdue.argument hcallee⟩, ?_⟩
    intro argument hargument
    exact hnext _ (.application hcallee hargument)

theorem Tracks.advance {agenda next : Agenda} {before : List TokenKind} {kind : TokenKind}
    (htracks : agenda.Tracks before) (h : agenda.advance? kind = some next) :
    next.Tracks (before ++ [kind]) := by
  cases agenda with
  | nothing => cases h
  | token due rest =>
    obtain ⟨rfl, rfl⟩ := advance?_token_eq_some_iff.1 h
    exact htracks
  | expression room rest => exact htracks.enter h
  | program =>
    have hbefore : IsDefinitions before := htracks
    by_cases hkind : kind = .keyword
    · subst hkind
      cases h
      simp only [Tracks, List.append_assoc, List.cons_append, List.nil_append]
      refine ⟨⟨0, Nat.zero_add _, .definition hbefore⟩, ?_⟩
      intro kinds hkinds
      exact hbefore.concat hkinds
    · rw [advance?_program_of_ne hkind] at h
      refine Tracks.enter ⟨⟨0, Nat.zero_add _, .trailing hbefore⟩, ?_⟩ h
      intro _ _
      trivial

theorem Tracks.follow {agenda next : Agenda} {before kinds : List TokenKind}
    (htracks : agenda.Tracks before) (h : agenda.follow? kinds = some next) :
    next.Tracks (before ++ kinds) := by
  induction kinds generalizing agenda before with
  | nil =>
    cases h
    simpa using htracks
  | cons kind kinds ih =>
    obtain ⟨middle, hstep, hrest⟩ := follow?_cons_eq_some_iff.1 h
    simpa using ih (htracks.advance hstep) hrest

theorem tracks_of_follow? {agenda : Agenda} {before : List TokenKind}
    (h : program.follow? before = some agenda) : agenda.Tracks before := by
  have hstart : program.Tracks [] := IsDefinitions.nil
  exact hstart.follow h

/-- **Where the agenda has an expression first, one is due inside as many others as there is room
missing.** -/
theorem expressionDue_of_follow? {room : Nat} {next : Agenda} {before : List TokenKind}
    (h : program.follow? before = some (.expression room next)) :
    ∃ depth, depth + room = maxNesting ∧ ExpressionDue depth before :=
  (tracks_of_follow? h).1

theorem eq_program_of_isDefinitions {before : List TokenKind} (hbefore : IsDefinitions before)
    {agenda : Agenda} (h : program.follow? before = some agenda) : agenda = .program := by
  induction hbefore generalizing agenda with
  | nil =>
    cases h
    rfl
  | concat _ hkinds ih =>
    obtain ⟨agenda₁, hbefore, h⟩ := follow?_append_eq_some_iff.1 h
    obtain rfl := ih hbefore
    exact eq_of_follow?_expression hkinds h

/-- First on the agenda is an expression, inside `depth` others. -/
def AwaitsExpression (agenda : Agenda) (depth : Nat) : Prop :=
  (∃ room next, agenda = .expression room next ∧ depth + room = maxNesting) ∨
    (agenda = .program ∧ depth = 0)

/-- Unless a definition begins, such an agenda goes on as one of an expression. -/
theorem AwaitsExpression.enter {agenda last : Agenda} {depth : Nat} {kind : TokenKind}
    {kinds : List TokenKind} (hawaits : agenda.AwaitsExpression depth) (hkind : kind ≠ .keyword)
    (h : agenda.follow? (kind :: kinds) = some last) :
    ∃ room next middle, depth + room = maxNesting ∧
      (expression room next).advance? kind = some middle ∧ middle.follow? kinds = some last := by
  obtain ⟨middle, hstep, hrest⟩ := follow?_cons_eq_some_iff.1 h
  rcases hawaits with ⟨room, next, rfl, hroom⟩ | ⟨rfl, rfl⟩
  · exact ⟨room, next, middle, hroom, hstep, hrest⟩
  · rw [advance?_program_of_ne hkind] at hstep
    exact ⟨maxNesting, .nothing, middle, Nat.zero_add _, hstep, hrest⟩

/-- **Where an expression is due, it comes first on the agenda and has as much room as the open ones
leave.** -/
theorem awaitsExpression_of_follow? {depth : Nat} {before : List TokenKind}
    (hdue : ExpressionDue depth before) {agenda : Agenda}
    (h : program.follow? before = some agenda) : agenda.AwaitsExpression depth := by
  induction hdue generalizing agenda with
  | trailing hbefore => exact .inr ⟨eq_program_of_isDefinitions hbefore h, rfl⟩
  | definition hbefore =>
    obtain ⟨agenda₁, hfirst, h⟩ := follow?_append_eq_some_iff.1 h
    obtain rfl := eq_program_of_isDefinitions hbefore hfirst
    cases h
    exact .inl ⟨_, _, rfl, Nat.zero_add _⟩
  | body _ ih =>
    obtain ⟨agenda₁, hfirst, h⟩ := follow?_append_eq_some_iff.1 h
    obtain ⟨room, next, agenda₂, hroom, hstep, h⟩ := (ih hfirst).enter (by simp) h
    obtain ⟨smaller, rfl, hcases⟩ := advance?_expression_eq_some_iff.1 hstep
    obtain rfl : agenda₂ = .token .name (.token .dot (.expression smaller next)) := by
      simpa using hcases
    cases h
    exact .inl ⟨smaller, next, rfl, by omega⟩
  | callee _ ih =>
    obtain ⟨agenda₁, hfirst, h⟩ := follow?_append_eq_some_iff.1 h
    obtain ⟨room, next, agenda₂, hroom, hstep, h⟩ := (ih hfirst).enter (by simp) h
    obtain ⟨smaller, rfl, hcases⟩ := advance?_expression_eq_some_iff.1 hstep
    obtain rfl :
        agenda₂ = .expression smaller (.expression smaller (.token .closeParen next)) := by
      simpa using hcases
    cases h
    exact .inl ⟨smaller, _, rfl, by omega⟩
  | argument _ hcallee ih =>
    obtain ⟨agenda₁, hfirst, h⟩ := follow?_append_eq_some_iff.1 h
    obtain ⟨room, next, agenda₂, hroom, hstep, h⟩ := (ih hfirst).enter (by simp) h
    obtain ⟨smaller, rfl, hcases⟩ := advance?_expression_eq_some_iff.1 hstep
    obtain rfl :
        agenda₂ = .expression smaller (.expression smaller (.token .closeParen next)) := by
      simpa using hcases
    obtain rfl := eq_of_follow?_expression hcallee h
    exact .inl ⟨smaller, _, rfl, by omega⟩

/-- **Wherever the agenda went on, fewer expressions were open than may be.** -/
theorem lt_of_expressionDue {depth : Nat} {before rest : List TokenKind} {kind : TokenKind}
    {agenda : Agenda} (hdue : ExpressionDue depth before)
    (h : program.follow? (before ++ kind :: rest) = some agenda) : depth < maxNesting := by
  obtain ⟨agenda₁, hbefore, h⟩ := follow?_append_eq_some_iff.1 h
  obtain ⟨agenda₂, hstep, _⟩ := follow?_cons_eq_some_iff.1 h
  rcases awaitsExpression_of_follow? hdue hbefore with ⟨room, next, rfl, hroom⟩ | ⟨rfl, rfl⟩
  · obtain ⟨smaller, rfl, _⟩ := advance?_expression_eq_some_iff.1 hstep
    omega
  · decide

end Agenda

end ScopedLambda
