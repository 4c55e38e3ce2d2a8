import ScopedLambda.Proofs.FirstFault
import ScopedLambda.Proofs.InStep

/-!
# How many expressions are open

The reader is told how much room there is for expressions inside each other. A reader may as well
count the open ones in its state: one more where an expression begins, one less where the reading of
it ends, be it in a value or in a fault. Both read the same and refuse the same, the count is the
number of expressions that have begun and are not complete, and it returns to where it was.

* `OpenAfter` — after some kinds of tokens so many expressions have begun and are not complete.
* `Item`, `ahead` — what is due, each item with the number of expressions around it.
* `Moment`, `CountedState`, `Counter` — a reading that counts, and that notes the count before each
  token.
* `Counter.enclosed` — a reading inside one more open expression.
* `Counter.countExpression`, `Counter.countProgram` — the rules of the grammar for such a reading.
* `Counter.Counts` — a counting reading in step with one that does not count.

Principal results: `OpenAfter.unique` — the number of open expressions is determined;
`Counter.Counts.enclosed` — the count is restored; `Counter.counts_countProgram` — a program is read
by counting as it is read by room, and the count is right before every token.
-/

set_option autoImplicit false

namespace ScopedLambda

/-! ## Open expressions -/

/-- Kinds of tokens that begin a sentence, after which so many expressions have begun and are not
complete. -/
inductive OpenAfter : Nat → List TokenKind → Prop where
  | due {depth : Nat} {before : List TokenKind} (hdue : ExpressionDue depth before) :
    OpenAfter depth before
  | lambda {depth : Nat} {before : List TokenKind} (hdue : ExpressionDue depth before) :
    OpenAfter (depth + 1) (before ++ [.lambda])
  | parameter {depth : Nat} {before : List TokenKind} (hdue : ExpressionDue depth before) :
    OpenAfter (depth + 1) (before ++ [.lambda, .name])
  | operands {depth : Nat} {before callee argument : List TokenKind}
    (hdue : ExpressionDue depth before) (hcallee : IsExpression callee)
    (hargument : IsExpression argument) :
    OpenAfter (depth + 1) (before ++ .openParen :: (callee ++ argument))
  | keyword {before : List TokenKind} (hbefore : IsDefinitions before) :
    OpenAfter 0 (before ++ [.keyword])
  | defined {before : List TokenKind} (hbefore : IsDefinitions before) :
    OpenAfter 0 (before ++ [.keyword, .name])
  | complete {before kinds : List TokenKind} (hbefore : IsDefinitions before)
    (hkinds : IsExpression kinds) : OpenAfter 0 (before ++ kinds)

/-- Something that is due inside so many open expressions. -/
inductive Item where
  | token (depth : Nat)
  | expression (depth : Nat)

namespace Item

/-- How many expressions are open when the turn of an item comes. -/
def depth : Item → Nat
  | token depth => depth
  | expression depth => depth

/-- What is due after the first token of an expression, inside the expression. -/
def enter (depth : Nat) : TokenKind → List Item
  | .lambda => [token (depth + 1), token (depth + 1), expression (depth + 1)]
  | .openParen => [expression (depth + 1), expression (depth + 1), token (depth + 1)]
  | _ => []

/-- What is due after some tokens that begin a sentence. -/
def ahead : List Item → List TokenKind → List Item
  | items, [] => items
  | [], .keyword :: kinds => ahead [token 0, token 0, expression 0] kinds
  | [], kind :: kinds => ahead (enter 0 kind) kinds
  | token _ :: items, _ :: kinds => ahead items kinds
  | expression depth :: items, kind :: kinds => ahead (enter depth kind ++ items) kinds

theorem ahead_nil (items : List Item) : ahead items [] = items := by
  cases items <;> rfl

theorem ahead_append (items : List Item) (first second : List TokenKind) :
    ahead items (first ++ second) = ahead (ahead items first) second := by
  fun_induction ahead items first <;> simp_all [ahead]

/-- A complete expression is no longer due. -/
theorem ahead_expression {kinds : List TokenKind} (hkinds : IsExpression kinds) (depth : Nat)
    (items : List Item) : ahead (expression depth :: items) kinds = items := by
  induction hkinds generalizing depth items with
  | name => exact ahead_nil items
  | function _ ih => exact ih (depth + 1) items
  | application _ _ ihc iha =>
    show ahead (expression (depth + 1) :: expression (depth + 1) :: token (depth + 1) :: items) _ = _
    rw [ahead_append, ihc, ahead_append, iha]
    exact ahead_nil items

theorem ahead_definitions {before : List TokenKind} (hbefore : IsDefinitions before) :
    ahead [] before = [] := by
  induction hbefore with
  | nil => rfl
  | concat _ hkinds ih =>
    rw [ahead_append, ih]
    exact ahead_expression hkinds 0 []

/-- First of what is due is an expression inside so many others, or nothing is due by now. -/
def Awaits (depth : Nat) (items : List Item) : Prop :=
  (∃ rest, items = expression depth :: rest) ∨ (items = [] ∧ depth = 0)

/-- Unless a definition begins, what an expression asks for is due next. -/
theorem Awaits.exists_ahead {depth : Nat} {items : List Item} (h : Awaits depth items)
    {kind : TokenKind} (hkind : kind ≠ .keyword) (kinds : List TokenKind) :
    ∃ rest, ahead items (kind :: kinds) = ahead (enter depth kind ++ rest) kinds := by
  rcases h with ⟨rest, rfl⟩ | ⟨rfl, rfl⟩
  · exact ⟨rest, by rw [ahead]⟩
  · refine ⟨[], ?_⟩
    rw [List.append_nil]
    cases kind with
    | keyword => exact absurd rfl hkind
    | _ => rfl

/-- **Where an expression is due, it is the next item and knows how many others are open.** -/
theorem awaits_ahead {depth : Nat} {before : List TokenKind} (hdue : ExpressionDue depth before) :
    Awaits depth (ahead [] before) := by
  induction hdue with
  | trailing hbefore => exact .inr ⟨ahead_definitions hbefore, rfl⟩
  | definition hbefore =>
    rw [ahead_append, ahead_definitions hbefore]
    exact .inl ⟨[], rfl⟩
  | body _ ih =>
    obtain ⟨rest, h⟩ := ih.exists_ahead (show .lambda ≠ _ by decide) [.name, .dot]
    rw [ahead_append, h]
    exact .inl ⟨rest, ahead_nil _⟩
  | callee _ ih =>
    obtain ⟨rest, h⟩ := ih.exists_ahead (show .openParen ≠ _ by decide) []
    rw [ahead_append, h]
    exact .inl ⟨_, ahead_nil _⟩
  | @argument _ _ callee _ hcallee ih =>
    obtain ⟨rest, h⟩ := ih.exists_ahead (show .openParen ≠ _ by decide) callee
    rw [ahead_append, h]
    exact .inl ⟨_, ahead_expression hcallee _ _⟩

/-- The next item knows how many expressions are open. -/
theorem depth_next {depth : Nat} {kinds : List TokenKind} (h : OpenAfter depth kinds) :
    (ahead [] kinds).head?.elim 0 Item.depth = depth := by
  cases h with
  | due hdue =>
    rcases awaits_ahead hdue with ⟨rest, h⟩ | ⟨h, rfl⟩
    · rw [h]
      rfl
    · rw [h]
      rfl
  | lambda hdue =>
    obtain ⟨rest, h⟩ := (awaits_ahead hdue).exists_ahead (show .lambda ≠ _ by decide) []
    rw [ahead_append, h]
    rfl
  | parameter hdue =>
    obtain ⟨rest, h⟩ := (awaits_ahead hdue).exists_ahead (show .lambda ≠ _ by decide) [.name]
    rw [ahead_append, h]
    rfl
  | @operands depth before callee argument hdue hcallee hargument =>
    obtain ⟨rest, h⟩ :=
      (awaits_ahead hdue).exists_ahead (show .openParen ≠ _ by decide) (callee ++ argument)
    have hnext : ahead (enter depth .openParen ++ rest) (callee ++ argument) =
        token (depth + 1) :: rest := by
      rw [ahead_append]
      exact (congrArg (ahead · argument) (ahead_expression hcallee _ _)).trans
        (ahead_expression hargument _ _)
    rw [ahead_append, h, hnext]
    rfl
  | keyword hbefore =>
    rw [ahead_append, ahead_definitions hbefore]
    rfl
  | defined hbefore =>
    rw [ahead_append, ahead_definitions hbefore]
    rfl
  | @complete before kinds hbefore hkinds =>
    have htrailing : ahead [] kinds = ahead [expression 0] kinds := by cases hkinds <;> rfl
    rw [ahead_append, ahead_definitions hbefore, htrailing, ahead_expression hkinds]
    rfl

end Item

/-- **The number of open expressions is determined by the kinds.** -/
theorem OpenAfter.unique {depth depth' : Nat} {kinds : List TokenKind} (h : OpenAfter depth kinds)
    (h' : OpenAfter depth' kinds) : depth = depth' :=
  (Item.depth_next h).symm.trans (Item.depth_next h')

/-! ## Readings that count -/

/-- What was counted when the token of some index was due. -/
structure Moment where
  index : Nat
  depth : Nat
deriving DecidableEq

/-- A reading under way that counts the open expressions. -/
structure CountedState where
  reading : ReadState
  depth : Nat
  /-- The largest count so far. -/
  peak : Nat
  /-- The counts so far, the latest one first. -/
  moments : List Moment
deriving DecidableEq

/-- The state before anything is read. -/
def CountedState.start (cursor : Cursor) (depth : Nat) : CountedState :=
  ⟨.start cursor, depth, depth, []⟩

/-- The state with its count noted. -/
def CountedState.noted (state : CountedState) : CountedState :=
  { state with moments := ⟨state.reading.cursor.index, state.depth⟩ :: state.moments }

/-- A reading that counts the open expressions. -/
abbrev Counter := EStateM GrammarFault CountedState

namespace Counter

open Reader

section Primitives

variable {α : Type}

/-- A reading that leaves the count alone. -/
def lift (reader : Reader α) : Counter α := fun state =>
  match reader state.reading with
  | .ok value reading => .ok value { state with reading }
  | .error fault reading => .error fault { state with reading }

/-- A reading that leaves the count alone, but notes it first. -/
def noting (reader : Reader α) : Counter α := fun state => lift reader state.noted

/-- Refuses a token where as many expressions are open as may be. -/
def checkDepth (token : Token) : Counter Unit := fun state =>
  if state.depth = maxNesting then .error (.nestedTooDeeply token) state else .ok () state

/-- A reading inside one more open expression, which is closed in whichever way the reading ends. -/
def enclosed (counter : Counter α) : Counter α := fun state =>
  match counter { state with
    depth := state.depth + 1
    peak := max state.peak (state.depth + 1) } with
  | .ok value last => .ok value { last with depth := last.depth - 1 }
  | .error fault last => .error fault { last with depth := last.depth - 1 }

end Primitives

/-- Reads an expression. The recursion is at most `levels` deep; it is the count that ends it. -/
def countExpression : Nat → Counter Expr
  | 0 => do
    let token ← noting (take .expression)
    throw (.nestedTooDeeply token)
  | levels + 1 => do
    let token ← noting (take .expression)
    checkDepth token
    enclosed <| match token.kind with
    | .name => return .var (← lift (makeName token))
    | .lambda => do
      let parameter ← lift (makeName (← noting (expect .name)))
      let _ ← noting (expect .dot)
      let body ← countExpression levels
      return .lam (← lift makeFunctionId) parameter body (token.span.merge body.span)
    | .openParen => do
      let callee ← countExpression levels
      let argument ← countExpression levels
      let close ← noting (expect .closeParen)
      return .app callee argument (token.span.merge close.span)
    | _ => throw (.unexpectedToken token .expression)

/-- Reads one definition. -/
def countDefinition : Counter Definition := do
  let keyword ← noting (expect .keyword)
  let name ← lift (makeName (← noting (expect .name)))
  let _ ← noting (expect .equals)
  let expression ← countExpression (maxNesting + 1)
  return ⟨name, expression, keyword.span.merge expression.span⟩

/-- Reads definitions for as long as the keyword is to come, `limit` of them at most. -/
def countDefinitions : Nat → Counter (List Definition)
  | 0 => return []
  | limit + 1 => do
    if (← get).reading.cursor.peek?.any (·.kind == .keyword) then
      let definition ← countDefinition
      return definition :: (← countDefinitions limit)
    return []

/-- Reads the trailing expression, if any token is to come. -/
def countTrailing : Counter (Option Expr) := do
  if (← get).reading.cursor.hasNext then return some (← countExpression (maxNesting + 1))
  return none

theorem countDefinitions_succ (limit : Nat) (state : CountedState) :
    countDefinitions (limit + 1) state =
      (if state.reading.cursor.peek?.any (·.kind == .keyword) then
        countDefinition >>= fun definition => countDefinitions limit >>= fun definitions =>
          pure (definition :: definitions)
      else pure [] : Counter (List Definition)) state := rfl

theorem countTrailing_eq (state : CountedState) :
    countTrailing state =
      (if state.reading.cursor.hasNext then
        countExpression (maxNesting + 1) >>= fun expression => pure (some expression)
      else pure none : Counter (Option Expr)) state := rfl

/-- Reads definitions and a trailing expression, after which the tokens have to end. There are not
more definitions than tokens to come. -/
def countProgram : Counter Program := do
  let definitions ← countDefinitions (← get).reading.cursor.rest.length
  let expression ← countTrailing
  noting expectEnd
  return ⟨definitions, expression⟩

/-! ## Counting in step -/

end Counter

/-- A counting reading that has begun at a cursor has read as far as another one, so many expressions
are open in it, and it has never counted more than may be open. Every count that it has noted is the
number of open expressions after the tokens passed until then, and it has noted one for each of
them. -/
structure CountedState.Sound (start : Cursor) (depth : Nat) (state : CountedState)
    (reading : ReadState) : Prop where
  reading_eq : state.reading = reading
  depth_eq : state.depth = depth
  peak_le : state.peak ≤ maxNesting
  moments : ∀ moment ∈ state.moments,
    moment.depth ≤ maxNesting ∧ OpenAfter moment.depth (start.kindsUpTo moment.index)
  covers : ∀ index, start.index ≤ index → index < reading.cursor.index →
    ∃ moment ∈ state.moments, moment.index = index

/-- Such a reading that has passed tokens of some kinds. -/
structure CountedState.Behind (start : Cursor) (depth : Nat) (kinds : List TokenKind)
    (state : CountedState) (reading : ReadState) : Prop extends
    Sound start depth state reading where
  passes : ∃ taken, start.Passes taken reading.cursor ∧ taken.map (·.kind) = kinds

namespace CountedState

variable {start : Cursor} {depth : Nat} {kinds : List TokenKind} {state : CountedState}
  {reading : ReadState}

theorem behind_start (cursor : Cursor) :
    (CountedState.start cursor 0).Behind cursor 0 [] (.start cursor) where
  reading_eq := rfl
  depth_eq := rfl
  peak_le := Nat.zero_le _
  moments := nofun
  covers _ hle hlt := absurd (Nat.lt_of_le_of_lt hle hlt) (Nat.lt_irrefl _)
  passes := ⟨[], .refl cursor, rfl⟩

/-- The state may be noted where the count is right. -/
theorem Behind.noted (h : Behind start depth kinds state reading) (hopen : OpenAfter depth kinds)
    (hle : depth ≤ maxNesting) : Behind start depth kinds state.noted reading where
  reading_eq := h.reading_eq
  depth_eq := h.depth_eq
  peak_le := h.peak_le
  moments := by
    obtain ⟨taken, hpasses, hkinds⟩ := h.passes
    refine List.forall_mem_cons.2 ⟨?_, h.moments⟩
    show state.depth ≤ _ ∧ OpenAfter state.depth (start.kindsUpTo state.reading.cursor.index)
    rw [h.reading_eq, h.depth_eq, Cursor.kindsUpTo_index hpasses, hkinds]
    exact ⟨hle, hopen⟩
  covers index hfirst hlast := by
    obtain ⟨moment, hmem, hindex⟩ := h.covers index hfirst hlast
    exact ⟨moment, List.mem_cons_of_mem _ hmem, hindex⟩
  passes := h.passes

/-- A state that is noted covers the token to come. -/
theorem Behind.noted_covers (h : Behind start depth kinds state reading) {index : Nat}
    (hfirst : start.index ≤ index) (hlast : index ≤ reading.cursor.index) :
    ∃ moment ∈ state.noted.moments, moment.index = index := by
  rcases Nat.lt_or_eq_of_le hlast with hlt | rfl
  · obtain ⟨moment, hmem, hindex⟩ := h.covers index hfirst hlt
    exact ⟨moment, List.mem_cons_of_mem _ hmem, hindex⟩
  · exact ⟨_, List.mem_cons_self, congrArg (·.cursor.index) h.reading_eq⟩

end CountedState

namespace Counter

open Reader CountedState

/-- From where tokens of the kinds `before` have been passed and `depth` expressions are open, both
readings have results of one sort. A value comes with the kinds of the tokens passed by then, as
`after` says, and whether a value or a fault comes, again `depth` expressions are open. -/
def Counts {α : Type} (start : Cursor) (depth : Nat) (before : List TokenKind)
    (after : α → List TokenKind → Prop) (counter : Counter α) (reader : Reader α) : Prop :=
  InStep (Behind start depth before)
    (fun value state reading => ∃ kinds, after value kinds ∧ Behind start depth kinds state reading)
    (Sound start depth) id id counter reader

variable {α β : Type} {start : Cursor} {depth : Nat} {before : List TokenKind}
  {after : α → List TokenKind → Prop} {after' : β → List TokenKind → Prop}

theorem Counts.bind {first : Counter α} {first' : Reader α} {second : α → Counter β}
    {second' : α → Reader β} (hfirst : Counts start depth before after first first')
    (hsecond : ∀ value kinds, after value kinds →
      Counts start depth kinds after' (second value) (second' value)) :
    Counts start depth before after' (first >>= second) (first' >>= second') :=
  InStep.bind hfirst fun value state reading ⟨kinds, hafter, hbehind⟩ =>
    hsecond value kinds hafter state reading hbehind

theorem counts_pure {value : α} (h : after value before) :
    Counts start depth before after (pure value) (pure value) :=
  inStep_pure rfl fun _ _ hbehind => ⟨before, h, hbehind⟩

theorem counts_throw (fault : GrammarFault) :
    Counts start depth before after (throw fault) (throw fault) :=
  inStep_throw rfl fun _ _ hbehind => hbehind.toSound

/-- A reading that passes no token leaves all as it is. -/
theorem counts_lift {reader : Reader α}
    (h : ∀ state, ∃ value last, reader state = .ok value last ∧ last.cursor = state.cursor) :
    Counts start depth before (fun _ kinds => kinds = before) (lift reader) reader := by
  intro state reading hbehind
  obtain rfl := hbehind.reading_eq
  obtain ⟨value, last, hread, hcursor⟩ := h state.reading
  unfold lift
  rw [hread]
  refine .ok ⟨before, rfl, ⟨rfl, hbehind.depth_eq, hbehind.peak_le, hbehind.moments, ?_⟩, ?_⟩
  · rw [hcursor]
    exact hbehind.covers
  · rw [hcursor]
    exact hbehind.passes

theorem counts_makeName (token : Token) :
    Counts start depth before (fun _ kinds => kinds = before) (lift (makeName token))
      (makeName token) :=
  counts_lift fun _ => ⟨_, _, rfl, rfl⟩

theorem counts_makeFunctionId :
    Counts start depth before (fun _ kinds => kinds = before) (lift makeFunctionId)
      makeFunctionId :=
  counts_lift fun _ => ⟨_, _, rfl, rfl⟩

/-- **Before a token is taken, the count is noted.** -/
theorem counts_take (hopen : OpenAfter depth before) (hle : depth ≤ maxNesting)
    (due : Expectation) :
    Counts start depth before (fun token kinds => kinds = before ++ [token.kind])
      (noting (take due)) (take due) := by
  intro state reading h
  have hnoted := h.noted hopen hle
  obtain rfl := h.reading_eq
  obtain ⟨taken, hpasses, hkinds⟩ := h.passes
  obtain ⟨⟨⟨passed, rest⟩, names, functions⟩, depth', peak, moments⟩ := state
  cases rest with
  | nil => exact .error hnoted.toSound
  | cons token rest =>
    refine .ok ⟨before ++ [token.kind], rfl, ⟨rfl, h.depth_eq, h.peak_le, hnoted.moments, ?_⟩, ?_⟩
    · intro index hfirst hlast
      exact h.noted_covers hfirst (Nat.le_of_lt_succ hlast)
    · refine ⟨taken ++ [token], hpasses.trans (Cursor.Passes.refl _).cons, ?_⟩
      rw [List.map_append, hkinds]
      rfl

theorem noting_bind {γ : Type} (first : Reader γ) (second : γ → Reader α) :
    noting (first >>= second) = noting first >>= fun value => lift (second value) := by
  funext state
  show noting (EStateM.bind first second) state =
    EStateM.bind (noting first) (fun value => lift (second value)) state
  unfold noting lift EStateM.bind
  dsimp only
  cases first state.noted.reading <;> rfl

theorem counts_expect (hopen : OpenAfter depth before) (hle : depth ≤ maxNesting)
    (kind : TokenKind) :
    Counts start depth before (fun _ kinds => kinds = before ++ [kind])
      (noting (expect kind)) (expect kind) := by
  rw [expect, noting_bind]
  refine (counts_take hopen hle _).bind fun token kinds hkinds => ?_
  by_cases hkind : token.kind = kind
  · rw [if_pos hkind]
    exact counts_pure (hkind ▸ hkinds)
  · rw [if_neg hkind]
    exact counts_throw _

/-- The end of the tokens is looked for where the count is noted, too. -/
theorem counts_expectEnd (hopen : OpenAfter depth before) (hle : depth ≤ maxNesting) :
    Counts start depth before (fun _ _ => True) (noting expectEnd) expectEnd := by
  intro state reading h
  have hnoted := h.noted hopen hle
  obtain rfl := h.reading_eq
  obtain ⟨⟨⟨passed, rest⟩, names, functions⟩, depth', peak, moments⟩ := state
  cases rest with
  | nil => exact .ok ⟨before, trivial, hnoted⟩
  | cons token rest => exact .error hnoted.toSound

theorem counts_checkDepth {next : Unit → Counter α} {reader : Reader α} (hlt : depth < maxNesting)
    (token : Token) (hnext : Counts start depth before after (next ()) reader) :
    Counts start depth before after (checkDepth token >>= next) reader := by
  intro state reading h
  have hcheck : (checkDepth token >>= next) state = next () state := by
    show EStateM.bind (checkDepth token) next state = _
    rw [EStateM.bind, checkDepth, if_neg (h.depth_eq ▸ Nat.ne_of_lt hlt)]
  rw [hcheck]
  exact hnext state reading h

theorem counts_checkDepth_of_full {next : Unit → Counter α} (token : Token) :
    Counts start maxNesting before after (checkDepth token >>= next)
      (throw (.nestedTooDeeply token)) := by
  intro state reading h
  have hcheck : (checkDepth token >>= next) state = .error (.nestedTooDeeply token) state := by
    show EStateM.bind (checkDepth token) next state = _
    rw [EStateM.bind, checkDepth, if_pos h.depth_eq]
  rw [hcheck]
  exact .error h.toSound

/-- **Inside one more expression the count is larger by one, and it is restored in the end.** -/
theorem Counts.enclosed {counter : Counter α} {reader : Reader α} (hlt : depth < maxNesting)
    (h : Counts start (depth + 1) before after counter reader) :
    Counts start depth before after (enclosed counter) reader := by
  intro state reading hbehind
  have hinside : Behind start (depth + 1) before
      { state with depth := state.depth + 1, peak := max state.peak (state.depth + 1) }
      reading :=
    { hbehind with
      depth_eq := congrArg (· + 1) hbehind.depth_eq
      peak_le := Nat.max_le.2 ⟨hbehind.peak_le, hbehind.depth_eq ▸ hlt⟩ }
  have hresult := h _ _ hinside
  unfold Counter.enclosed
  generalize counter _ = result at hresult ⊢
  generalize reader reading = result' at hresult ⊢
  cases hresult with
  | ok hdone =>
    obtain ⟨kinds, hafter, hlast⟩ := hdone
    exact .ok ⟨kinds, hafter, { hlast with depth_eq := congrArg (· - 1) hlast.depth_eq }⟩
  | error hfailed => exact .error { hfailed with depth_eq := congrArg (· - 1) hfailed.depth_eq }

/-! ## The rules of the grammar -/

/-- **An expression is read by counting as it is read by room.** -/
theorem counts_countExpression (levels : Nat) {room depth : Nat} {before : List TokenKind}
    (hroom : depth + room = maxNesting) (hlevels : room < levels)
    (hdue : ExpressionDue depth before) :
    Counts start depth before (fun _ kinds => ∃ inner, IsExpression inner ∧ kinds = before ++ inner)
      (countExpression levels) (readExpression room) := by
  induction levels generalizing room depth before with
  | zero => omega
  | succ levels ih =>
    have htake := @counts_take start depth before (.due hdue) (by omega) .expression
    cases room with
    | zero =>
      obtain rfl : depth = maxNesting := by omega
      exact htake.bind fun token kinds _ => counts_checkDepth_of_full token
    | succ room =>
      refine htake.bind fun token kinds hkinds =>
        counts_checkDepth (by omega) token (Counts.enclosed (by omega) ?_)
      subst hkinds
      cases hkind : token.kind with
      | name =>
        refine (counts_makeName token).bind fun name kinds hkinds => counts_pure ?_
        exact ⟨[.name], .name, hkinds⟩
      | lambda =>
        have hparameter : OpenAfter (depth + 1) (before ++ [.lambda] ++ [.name]) := by
          simpa using OpenAfter.parameter hdue
        have hbody : ExpressionDue (depth + 1) (before ++ [.lambda] ++ [.name] ++ [.dot]) := by
          simpa using hdue.body
        apply (counts_expect (.lambda hdue) (by omega) _).bind
        rintro parameter _ rfl
        apply (counts_makeName parameter).bind
        rintro name _ rfl
        apply (counts_expect hparameter (by omega) _).bind
        rintro dot _ rfl
        apply (ih (by omega) (by omega) hbody).bind
        rintro body _ ⟨inner, hinner, rfl⟩
        apply counts_makeFunctionId.bind
        rintro id _ rfl
        exact counts_pure ⟨.lambda :: .name :: .dot :: inner, .function hinner, by simp⟩
      | openParen =>
        apply (ih (by omega) (by omega) hdue.callee).bind
        rintro callee _ ⟨first, hfirst, rfl⟩
        have hargument : ExpressionDue (depth + 1) (before ++ [.openParen] ++ first) := by
          simpa using hdue.argument hfirst
        apply (ih (by omega) (by omega) hargument).bind
        rintro argument _ ⟨second, hsecond, rfl⟩
        have hoperands : OpenAfter (depth + 1) (before ++ [.openParen] ++ first ++ second) := by
          simpa using OpenAfter.operands hdue hfirst hsecond
        apply (counts_expect hoperands (by omega) _).bind
        rintro close _ rfl
        exact counts_pure ⟨_, .application hfirst hsecond, by simp⟩
      | keyword | dot | equals | closeParen => exact counts_throw _

/-- Outside of expressions nothing is open. -/
theorem counts_top_level {before : List TokenKind} (hdue : ExpressionDue 0 before) :
    Counts start 0 before (fun _ kinds => ∃ inner, IsExpression inner ∧ kinds = before ++ inner)
      (countExpression (maxNesting + 1)) (readExpression maxNesting) :=
  counts_countExpression _ (Nat.zero_add _) (Nat.lt_succ_self _) hdue

theorem counts_countDefinition {before : List TokenKind} (hbefore : IsDefinitions before) :
    Counts start 0 before (fun _ kinds => IsDefinitions kinds) countDefinition readDefinition := by
  have hname : OpenAfter 0 (before ++ [.keyword] ++ [.name]) := by
    simpa using OpenAfter.defined hbefore
  have hexpression : ExpressionDue 0 (before ++ [.keyword] ++ [.name] ++ [.equals]) := by
    simpa using ExpressionDue.definition hbefore
  apply (counts_expect (.due (.trailing hbefore)) (Nat.zero_le _) _).bind
  rintro keyword _ rfl
  apply (counts_expect (.keyword hbefore) (Nat.zero_le _) _).bind
  rintro token _ rfl
  apply (counts_makeName token).bind
  rintro name _ rfl
  apply (counts_expect hname (Nat.zero_le _) _).bind
  rintro equals _ rfl
  apply (counts_top_level hexpression).bind
  rintro expression _ ⟨inner, hinner, rfl⟩
  refine counts_pure ?_
  simpa using hbefore.concat hinner

/-- **Definitions are read by counting as they are read without**, if the limit admits as many as
there are tokens to come. -/
theorem sameResult_countDefinitions (limit : Nat) {before : List TokenKind}
    (hbefore : IsDefinitions before) {state : CountedState} {reading : ReadState}
    (h : state.Behind start 0 before reading) (hlimit : reading.cursor.rest.length ≤ limit) :
    SameResult
      (fun _ state reading => ∃ kinds, IsDefinitions kinds ∧ Behind start 0 kinds state reading)
      (Sound start 0) id id (countDefinitions limit state) (readDefinitions reading) := by
  induction limit generalizing before state reading with
  | zero =>
    have hrest : reading.cursor.rest = [] := List.eq_nil_of_length_eq_zero (Nat.le_zero.1 hlimit)
    rw [readDefinitions_of_noKeyword (by simp [NoKeyword, hrest])]
    exact .ok ⟨before, hbefore, h⟩
  | succ limit ih =>
    rw [countDefinitions_succ, h.reading_eq]
    by_cases hkeyword : reading.cursor.peek?.any (·.kind == .keyword) = true
    · rw [if_pos hkeyword, readDefinitions_of_keyword hkeyword]
      refine (counts_countDefinition hbefore state reading h).bind
        fun definition middle middle' _ hread hdone => ?_
      obtain ⟨kinds, hkinds, hmiddle⟩ := hdone
      have hshorter := readDefinition_shortens hread
      refine (ih hkinds hmiddle (by omega)).bind fun definitions last last' _ _ hlast => ?_
      exact .ok hlast
    · rw [if_neg hkeyword, readDefinitions, if_neg hkeyword]
      exact .ok ⟨before, hbefore, h⟩

theorem counts_countTrailing {before : List TokenKind} (hbefore : IsDefinitions before) :
    Counts start 0 before (fun _ kinds => OpenAfter 0 kinds) countTrailing readTrailing := by
  intro state reading h
  rw [countTrailing_eq, readTrailing_eq, h.reading_eq]
  split
  · have hsome : Counts start 0 before (fun _ kinds => OpenAfter 0 kinds)
        (countExpression (maxNesting + 1) >>= fun expression => pure (some expression))
        (readExpression maxNesting >>= fun expression => pure (some expression)) := by
      apply (counts_top_level (.trailing hbefore)).bind
      rintro expression _ ⟨inner, hinner, rfl⟩
      exact counts_pure (.complete hbefore hinner)
    exact hsome state reading h
  · exact .ok ⟨before, .due (.trailing hbefore), h⟩

/-- **A program is read by counting as it is read by room.** The count is restored and was right all
the time. -/
theorem counts_countProgram :
    Counts start 0 [] (fun _ _ => True) countProgram Reader.readProgram := by
  intro state reading h
  refine (sameResult_countDefinitions state.reading.cursor.rest.length .nil h
    (by rw [h.reading_eq])).bind fun definitions middle middle' _ _ hdone => ?_
  obtain ⟨kinds, hkinds, hmiddle⟩ := hdone
  have hrest : Counts start 0 kinds (fun _ _ => True)
      (countTrailing >>= fun expression => noting expectEnd >>= fun _ =>
        pure (⟨definitions, expression⟩ : Program))
      (readTrailing >>= fun expression => expectEnd >>= fun _ =>
        pure (⟨definitions, expression⟩ : Program)) :=
    (counts_countTrailing hkinds).bind fun _ _ hopen =>
      (counts_expectEnd hopen (Nat.zero_le _)).bind fun _ _ _ => counts_pure trivial
  exact hrest middle middle' hmiddle

end Counter

end ScopedLambda
