import ScopedLambda.Span

/-!
# Tokens

A token is a piece of the source text with the kind it was given.

* `TokenKind` — the keyword `def`, a name, or one of the five symbols.
* `Token` — a kind, the lexeme, and where it stands.
* `Token.same` — whether two tokens are the same word: equal kinds and lexemes, wherever they
  stand.
* `Token.distinct` — a list of tokens without the words that occurred before.
* `TokenKind.label`, `Token.describe`, `Token.render` — how a kind and a token are named in
  messages.
-/

set_option autoImplicit false

namespace ScopedLambda

/-- What a token is to the grammar. -/
inductive TokenKind where
  /-- The word `def`. -/
  | keyword
  | name
  /-- The symbol `λ`. -/
  | lambda
  | dot
  | equals
  | openParen
  | closeParen
deriving DecidableEq

namespace TokenKind

/-- What a message calls a token that is due: a symbol in quotes, or a name. -/
def label : TokenKind → String
  | keyword => "'def'"
  | name => "name"
  | lambda => "'λ'"
  | dot => "'.'"
  | equals => "'='"
  | openParen => "'('"
  | closeParen => "')'"

/-- The bare name of a kind. -/
def tag : TokenKind → String
  | keyword => "Def"
  | name => "Name"
  | lambda => "Lambda"
  | dot => "Dot"
  | equals => "Equals"
  | openParen => "OpenParen"
  | closeParen => "CloseParen"

theorem label_injective {first second : TokenKind} (h : first.label = second.label) :
    first = second := by
  revert h
  cases first <;> cases second <;> decide

end TokenKind

/-- A piece of the source text, its kind, and where it stands. -/
structure Token where
  kind : TokenKind
  lexeme : String
  span : Span
deriving DecidableEq

namespace Token

/-- Whether two tokens are the same word: equal kinds and lexemes, wherever they stand. -/
def same (first second : Token) : Bool :=
  first.kind == second.kind && first.lexeme == second.lexeme

/-- The tokens that are the first of their word in a list. -/
def distinct (tokens : List Token) : List Token := tokens.eraseDupsBy same

/-- What a message calls a token that was found. -/
def describe (token : Token) : String :=
  match token.kind with
  | .name => "name '" ++ token.lexeme ++ "'"
  | _ => "'" ++ token.lexeme ++ "'"

/-- A token as its kind applied to its lexeme. -/
def render (token : Token) : String := token.kind.tag ++ "('" ++ token.lexeme ++ "')"

theorem same_iff {first second : Token} :
    first.same second = true ↔ first.kind = second.kind ∧ first.lexeme = second.lexeme := by
  simp [same]

end Token

end ScopedLambda
