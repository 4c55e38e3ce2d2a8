import ScopedLambda.Token

/-!
# A cursor over tokens

A cursor stands between two tokens of a list. It is kept as the tokens passed, nearest first, and
the tokens to come; a step moves one token from one side to the other.

* `Cursor.tokens` — the whole list, which no step changes.
* `Cursor.index` — how many tokens have been passed.
* `Cursor.next`, `Cursor.previous` — a step over one token, or `none` at the end of the list.
* `Cursor.peek?` — the token to come.
* `Cursor.endSpan` — the empty span past the last token, where missing input is located.

Principal results: `tokens_next`, `tokens_previous` — a step keeps the list;
`previous_next`, `next_previous` — each step undoes the other.
-/

set_option autoImplicit false

namespace ScopedLambda

/-- A place in a list of tokens: those passed, nearest first, and those to come. -/
structure Cursor where
  passed : List Token
  rest : List Token
deriving DecidableEq

namespace Cursor

/-- The cursor before the first of some tokens. -/
def ofTokens (tokens : List Token) : Cursor := ⟨[], tokens⟩

/-- All tokens, passed or to come, in order. -/
def tokens (cursor : Cursor) : List Token := cursor.passed.reverse ++ cursor.rest

/-- How many tokens have been passed. -/
def index (cursor : Cursor) : Nat := cursor.passed.length

/-- Whether a token is to come. -/
def hasNext (cursor : Cursor) : Bool := !cursor.rest.isEmpty

/-- Whether a token has been passed. -/
def hasPrevious (cursor : Cursor) : Bool := !cursor.passed.isEmpty

/-- The token to come. -/
def peek? (cursor : Cursor) : Option Token := cursor.rest.head?

/-- A step forward over one token. -/
def next (cursor : Cursor) : Option Token × Cursor :=
  match cursor.rest with
  | [] => (none, cursor)
  | token :: rest => (some token, ⟨token :: cursor.passed, rest⟩)

/-- A step back over one token. -/
def previous (cursor : Cursor) : Option Token × Cursor :=
  match cursor.passed with
  | [] => (none, cursor)
  | token :: passed => (some token, ⟨passed, token :: cursor.rest⟩)

/-- The empty span past the last token; at offset 0 if there is no token. -/
def endSpan (cursor : Cursor) : Span :=
  Span.emptyAt (cursor.tokens.getLast?.elim 0 (·.span.stop))

/-! ## Steps -/

@[simp] theorem tokens_ofTokens (tokens : List Token) : (ofTokens tokens).tokens = tokens := rfl

@[simp] theorem index_ofTokens (tokens : List Token) : (ofTokens tokens).index = 0 := rfl

@[simp] theorem tokens_next (cursor : Cursor) : cursor.next.2.tokens = cursor.tokens := by
  unfold next tokens
  split <;> simp_all

@[simp] theorem tokens_previous (cursor : Cursor) : cursor.previous.2.tokens = cursor.tokens := by
  unfold previous tokens
  split <;> simp_all

/-- A step forward that meets a token is undone by a step back. -/
theorem previous_next {cursor : Cursor} (h : cursor.hasNext = true) :
    cursor.next.2.previous = (cursor.next.1, cursor) := by
  obtain ⟨passed, rest⟩ := cursor
  cases rest with
  | nil => simp [hasNext] at h
  | cons token rest => rfl

/-- A step back that meets a token is undone by a step forward. -/
theorem next_previous {cursor : Cursor} (h : cursor.hasPrevious = true) :
    cursor.previous.2.next = (cursor.previous.1, cursor) := by
  obtain ⟨passed, rest⟩ := cursor
  cases passed with
  | nil => simp [hasPrevious] at h
  | cons token passed => rfl

theorem index_le_length (cursor : Cursor) : cursor.index ≤ cursor.tokens.length := by
  simp [index, tokens]

end Cursor

end ScopedLambda
