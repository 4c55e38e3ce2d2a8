import ScopedLambda.Cursor
import ScopedLambda.Program
import ScopedLambda.Program.Fault

/-!
# Reading a program from tokens

    program     := definition* expression?
    definition  := 'def' NAME '=' expression
    expression  := NAME | function | application
    function    := 'λ' NAME '.' expression
    application := '(' expression expression ')'

The reader goes forward only and looks at kinds, never at lexemes. It stops at the first fault,
with the cursor just past the token at fault; only a token that stands where the input was due to
end is left to come.

* `ReadState` — the cursor, and how many names and functions have been made.
* `Reader` — a reading that may end in a fault and keeps its state then, too.
* `readExpression`, `readDefinition`, `readDefinitions`, `readProgram` — the rules of the grammar.
* `Cursor.readProgram` — a reading from a cursor on, all identities counted from 0.

A name gets its identity when it is read, a function when it is finished, so that a function's
identity is larger than those of the functions inside it.

Principal results: `bind_ok_iff` — a sequence succeeds exactly if its parts do;
`readDefinition_shortens` — a definition uses up tokens, so a list of them ends.
-/

set_option autoImplicit false

namespace ScopedLambda

/-- A reading under way: where it stands, and how many names and functions it has made. -/
structure ReadState where
  cursor : Cursor
  names : Nat
  functions : Nat
deriving DecidableEq

/-- The state before anything is read. -/
def ReadState.start (cursor : Cursor) : ReadState := ⟨cursor, 0, 0⟩

/-- A reading that ends in a value or a fault, and in a state either way. -/
abbrev Reader := EStateM GrammarFault ReadState

namespace Reader

/-- Takes the next token, whatever it is. -/
def take (due : Expectation) : Reader Token := fun state =>
  match state.cursor.next with
  | (some token, cursor) => .ok token { state with cursor }
  | (none, _) => .error (.unexpectedEnd due state.cursor.endSpan) state

/-- Takes the next token, which has to be of a kind. -/
def expect (kind : TokenKind) : Reader Token := do
  let token ← take (.token kind)
  if token.kind = kind then return token
  throw (.unexpectedToken token (.token kind))

/-- Accepts only the end of the tokens, and takes nothing. -/
def expectEnd : Reader Unit := fun state =>
  match state.cursor.peek? with
  | some token => .error (.unexpectedToken token .endOfInput) state
  | none => .ok () state

/-- Makes a name of a token. -/
def makeName (token : Token) : Reader Name :=
  modifyGet fun state =>
    (⟨⟨state.names⟩, token.lexeme, token.span⟩, { state with names := state.names + 1 })

/-- Makes the identity of a finished function. -/
def makeFunctionId : Reader FunctionId :=
  modifyGet fun state => (⟨state.functions⟩, { state with functions := state.functions + 1 })

/-! ## The rules of the grammar -/

/-- Reads an expression inside which at most `room` expressions may lie in each other, itself
included. -/
def readExpression : Nat → Reader Expr
  | 0 => do
    let token ← take .expression
    throw (.nestedTooDeeply token)
  | room + 1 => do
    let token ← take .expression
    match token.kind with
    | .name => return .var (← makeName token)
    | .lambda =>
      let parameter ← makeName (← expect .name)
      let _ ← expect .dot
      let body ← readExpression room
      return .lam (← makeFunctionId) parameter body (token.span.merge body.span)
    | .openParen =>
      let callee ← readExpression room
      let argument ← readExpression room
      let close ← expect .closeParen
      return .app callee argument (token.span.merge close.span)
    | _ => throw (.unexpectedToken token .expression)

/-- Reads one definition. -/
def readDefinition : Reader Definition := do
  let keyword ← expect .keyword
  let name ← makeName (← expect .name)
  let _ ← expect .equals
  let expression ← readExpression maxNesting
  return ⟨name, expression, keyword.span.merge expression.span⟩

/-! ## Progress -/

/-- A sequence of two readings succeeds exactly if the first does and the second does after it. -/
theorem bind_ok_iff {α β : Type} {first : Reader α} {second : α → Reader β} {state last : ReadState}
    {b : β} : (first >>= second) state = .ok b last ↔
      ∃ a middle, first state = .ok a middle ∧ second a middle = .ok b last := by
  show EStateM.bind first second state = _ ↔ _
  unfold EStateM.bind
  cases first state with
  | ok a middle =>
    simp only [EStateM.Result.ok.injEq]
    exact ⟨fun h => ⟨a, middle, ⟨rfl, rfl⟩, h⟩, fun ⟨_, _, ⟨ha, hmiddle⟩, h⟩ => ha ▸ hmiddle ▸ h⟩
  | error fault middle => simp

/-- A reading that, when it succeeds, has used up at least `taken` tokens. -/
def Takes (taken : Nat) {α : Type} (reader : Reader α) : Prop :=
  ∀ state value last, reader state = .ok value last →
    last.cursor.rest.length + taken ≤ state.cursor.rest.length

theorem Takes.bind {α β : Type} {i j : Nat} {first : Reader α} {second : α → Reader β}
    (hfirst : Takes i first) (hsecond : ∀ a, Takes j (second a)) :
    Takes (i + j) (first >>= second) := by
  intro state b last h
  obtain ⟨a, middle, h₁, h₂⟩ := bind_ok_iff.1 h
  have := hfirst _ _ _ h₁
  have := hsecond a _ _ _ h₂
  omega

theorem Takes.mono {α : Type} {i j : Nat} {reader : Reader α} (h : Takes i reader) (hle : j ≤ i) :
    Takes j reader := fun state value last hok => by
  have := h state value last hok
  omega

theorem takes_pure {α : Type} (value : α) : Takes 0 (pure value : Reader α) := by
  intro state _ last h
  cases h
  simp

theorem takes_throw {α : Type} (i : Nat) (fault : GrammarFault) :
    Takes i (throw fault : Reader α) := by
  intro state _ last h
  cases h

theorem takes_take (due : Expectation) : Takes 1 (take due) := by
  intro state token last h
  unfold take Cursor.next at h
  cases hrest : state.cursor.rest with
  | nil => simp [hrest] at h
  | cons head rest =>
    simp only [hrest, EStateM.Result.ok.injEq] at h
    simp [← h.2]

theorem takes_makeName (token : Token) : Takes 0 (makeName token) := by
  intro state _ last h
  cases h
  simp

theorem takes_makeFunctionId : Takes 0 makeFunctionId := by
  intro state _ last h
  cases h
  simp

theorem takes_expect (kind : TokenKind) : Takes 1 (expect kind) := by
  refine (takes_take _).bind fun token => (?_ : Takes 0 _)
  split
  · exact takes_pure token
  · exact takes_throw 0 _

theorem takes_readExpression (room : Nat) : Takes 1 (readExpression room) := by
  induction room with
  | zero => exact (takes_take _).bind fun token => takes_throw 0 _
  | succ room ih =>
    refine (takes_take _).bind fun token => (?_ : Takes 0 _)
    split
    · exact (takes_makeName _).bind fun _ => takes_pure _
    · refine ((takes_expect _).bind fun name => (takes_makeName name).bind fun parameter =>
        (takes_expect _).bind fun _ => ih.bind fun body =>
        takes_makeFunctionId.bind fun id => takes_pure _).mono ?_
      omega
    · refine (ih.bind fun callee => ih.bind fun argument => (takes_expect _).bind fun close =>
        takes_pure _).mono ?_
      omega
    · exact takes_throw 0 _

theorem takes_readDefinition : Takes 4 readDefinition :=
  (takes_expect _).bind fun _ => (takes_expect _).bind fun token =>
    (takes_makeName token).bind fun _ => (takes_expect _).bind fun _ =>
    (takes_readExpression _).bind fun _ => takes_pure _

/-- **A definition that was read has used up tokens.** -/
theorem readDefinition_shortens {state last : ReadState} {definition : Definition}
    (h : readDefinition state = .ok definition last) :
    last.cursor.rest.length < state.cursor.rest.length := by
  have := takes_readDefinition _ _ _ h
  omega

/-! ## Whole programs -/

/-- Reads definitions for as long as the keyword is to come. -/
def readDefinitions (state : ReadState) :
    EStateM.Result GrammarFault ReadState (List Definition) :=
  if state.cursor.peek?.any (·.kind == .keyword) then
    match h : readDefinition state with
    | .error fault last => .error fault last
    | .ok definition middle =>
      have := readDefinition_shortens h
      match readDefinitions middle with
      | .error fault last => .error fault last
      | .ok definitions last => .ok (definition :: definitions) last
  else
    .ok [] state
termination_by state.cursor.rest.length

/-- Reads the trailing expression, if any token is to come. -/
def readTrailing : Reader (Option Expr) := do
  if (← get).cursor.hasNext then return some (← readExpression maxNesting)
  return none

/-- Reads definitions and a trailing expression, after which the tokens have to end. -/
def readProgram : Reader Program := do
  let definitions ← readDefinitions
  let expression ← readTrailing
  expectEnd
  return ⟨definitions, expression⟩

end Reader

/-- Reads a program from a cursor on. The cursor that is returned stands where the reading ended. -/
def Cursor.readProgram (cursor : Cursor) : Except GrammarFault Program × Cursor :=
  match Reader.readProgram (.start cursor) with
  | .ok program last => (.ok program, last.cursor)
  | .error fault last => (.error fault, last.cursor)

end ScopedLambda
