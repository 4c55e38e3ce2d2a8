import ScopedLambda.Text.Alphanumeric
import ScopedLambda.Text.Blank
import ScopedLambda.Text.NameChar
import ScopedLambda.Token

/-!
# Reading a text as tokens

The text is read from left to right. Blanks are passed over; a symbol is a token by itself wherever
it stands; a letter begins a run that goes on for as long as characters continue a name. The first
character that is none of these ends the reading.

* `runKind` — a run spelled `def` is the keyword, unless `λ` or a blank beyond ASCII follows it at
  once; every other run is a name.
* `LexicalError` — the refused character, where it stands, and whether it looks like part of a word.
* `scanFrom` — reads what is left of a text, at a byte offset.
* `scan` — reads a whole text.

What follows a run is shorter than what it was read from (`runs_shorten`), so the reading ends.
-/

set_option autoImplicit false

namespace ScopedLambda

open Text

/-! ## Refused characters -/

/-- Why a character was refused where it stands. -/
inductive LexicalFault where
  /-- The character belongs to no token. -/
  | unsupportedCharacter
  /-- The character looks like part of a word, and no word may begin with it. -/
  | invalidNameStart
deriving DecidableEq

/-- A character at which a text stops being readable. -/
structure LexicalError where
  fault : LexicalFault
  character : Char
  span : Span
deriving DecidableEq

namespace LexicalError

/-- The refusal of the character that stands at an offset. -/
def atOffset (offset : Nat) (c : Char) : LexicalError where
  fault := if isWordLike c then .invalidNameStart else .unsupportedCharacter
  character := c
  span := ⟨offset, offset + c.utf8Size⟩

/-- The refusal in words. -/
def message (error : LexicalError) : String :=
  let character := "'" ++ String.ofList [error.character] ++ "' at " ++ error.span.render
  match error.fault with
  | .unsupportedCharacter => "character is not supported: " ++ character
  | .invalidNameStart => "every name must start with a letter, found " ++ character

end LexicalError

/-! ## Single tokens -/

/-- The length of a text in bytes. -/
def utf8Length : List Char → Nat
  | [] => 0
  | c :: rest => c.utf8Size + utf8Length rest

/-- The token that `chars` make at an offset. -/
def Token.spelled (kind : TokenKind) (offset : Nat) (chars : List Char) : Token :=
  ⟨kind, String.ofList chars, ⟨offset, offset + utf8Length chars⟩⟩

/-- The kind of a symbol, if the character is one. -/
def TokenKind.ofSymbol? : Char → Option TokenKind
  | '.' => some .dot
  | '=' => some .equals
  | 'λ' => some .lambda
  | '(' => some .openParen
  | ')' => some .closeParen
  | _ => none

/-- Whether a character hides the keyword it directly follows: `λ` and the blanks beyond ASCII. -/
def hidesKeyword (c : Char) : Bool := c == 'λ' || isBlank c && decide (128 ≤ c.toNat)

/-- The kind of a run of name characters, given the character that ended it. -/
def runKind (run : List Char) (next : Option Char) : TokenKind :=
  if run = ['d', 'e', 'f'] ∧ next.any hidesKeyword = false then .keyword else .name

/-! ## The whole text -/

theorem runs_shorten (p : Char → Bool) (c : Char) (rest : List Char) :
    (rest.dropWhile p).length < (c :: rest).length :=
  Nat.lt_succ_of_le (List.dropWhile_sublist p).length_le

/-- The tokens of what is left of a text, of which `offset` bytes have been read. -/
def scanFrom (offset : Nat) : List Char → Except LexicalError (List Token)
  | [] => .ok []
  | c :: rest =>
    if isBlank c then
      scanFrom (offset + c.utf8Size) rest
    else match TokenKind.ofSymbol? c with
      | some kind =>
        (scanFrom (offset + c.utf8Size) rest).map (Token.spelled kind offset [c] :: ·)
      | none =>
        if isNameStart c then
          let run := c :: rest.takeWhile isNameChar
          let after := rest.dropWhile isNameChar
          (scanFrom (offset + utf8Length run) after).map
            (Token.spelled (runKind run after.head?) offset run :: ·)
        else
          .error (LexicalError.atOffset offset c)
termination_by chars => chars.length
decreasing_by
  all_goals first | exact runs_shorten _ _ _ | simp

/-- The tokens of a text, or the first character that cannot stand where it is. -/
def scan (source : String) : Except LexicalError (List Token) := scanFrom 0 source.toList

end ScopedLambda
