import ScopedLambda.Linking

/-!
# The journal

What is done with a text is entered in a journal. An entry says what happened; its level, its area
and its wording follow from that.

* `Level` — how severe an entry is, from `error` to `trace`.
* `Entry` — what happened.
* `Entry.level`, `Entry.area`, `Entry.message` — how it is reported.
* `upTo` — the entries of a level and the more severe ones.
* `threshold?` — a level by its name, in letters of either case; `OFF` lets nothing pass.
-/

set_option autoImplicit false

namespace ScopedLambda

/-- How severe an entry is. -/
inductive Level where
  | error
  | warn
  | info
  | debug
  | trace
deriving DecidableEq

namespace Level

/-- The place of a level among all, the most severe first. -/
def rank : Level → Nat
  | error => 1
  | warn => 2
  | info => 3
  | debug => 4
  | trace => 5

/-- The name of a level. -/
def label : Level → String
  | error => "ERROR"
  | warn => "WARN"
  | info => "INFO"
  | debug => "DEBUG"
  | trace => "TRACE"

/-- All levels, the most severe first. -/
def all : List Level := [error, warn, info, debug, trace]

end Level

/-- Something that was done with a text. -/
inductive Entry where
  | scanned (tokens : Nat)
  | sighted (sighting : Sighting)
  | shadowingsFound (count : Nat)
  | shadowed (shadowing : Shadowing)
  | linked (uses definitions : Nat)
  | completed (definitions : Nat)
deriving DecidableEq

namespace Binder

/-- A binder as the journal writes it. -/
def render : Binder → String
  | definition index => "Definition(DefinitionId(" ++ toString index ++ "))"
  | function id => "Function(FunctionId(" ++ toString id.index ++ "))"

end Binder

namespace Entry

/-- How severe an entry is. -/
def level : Entry → Level
  | scanned _ => .debug
  | sighted _ => .trace
  | shadowingsFound _ => .warn
  | shadowed _ => .warn
  | linked _ _ => .debug
  | completed _ => .debug

/-- The area of the work that an entry belongs to. -/
def area : Entry → String
  | scanned _ => "lambda_front::lexer"
  | completed _ => "lambda_front::parser"
  | _ => "lambda_front::scope"

/-- An entry in words. -/
def message : Entry → String
  | scanned tokens => "scanned " ++ toString tokens ++ " tokens"
  | sighted sighting =>
    "'" ++ sighting.name.text ++ "' at " ++ sighting.name.span.render ++
      " (depth " ++ toString sighting.depth ++ ") -> " ++
      sighting.binder.elim "None" ("Some(" ++ ·.render ++ ")")
  | shadowingsFound count =>
    toString count ++ " function parameter(s) shadow an enclosing parameter and must be renamed " ++
      "before substitution"
  | shadowed shadowing =>
    "parameter '" ++ shadowing.text ++ "' at " ++ shadowing.span.render ++
      " shadows an enclosing parameter"
  | linked uses definitions =>
    "resolved " ++ toString uses ++ " names over " ++ toString definitions ++ " definitions"
  | completed definitions => "parsed program with " ++ toString definitions ++ " definitions"

/-- An entry as a line: level, area and message. The level takes up five columns. -/
def render (entry : Entry) : String :=
  let label := entry.level.label
  "[" ++ label ++ String.ofList (List.replicate (5 - label.length) ' ') ++ " " ++ entry.area ++
    "] " ++ entry.message

end Entry

/-- The entries that are at least as severe as the threshold; without a threshold there are none. -/
def upTo (threshold : Option Level) (journal : List Entry) : List Entry :=
  journal.filter fun entry => threshold.any (entry.level.rank ≤ ·.rank)

/-- The threshold of a name, in letters of either case: a level, or `OFF`, which lets nothing
pass. -/
def threshold? (name : String) : Option (Option Level) :=
  let capitals := String.ofList (name.toList.map Char.toUpper)
  if capitals = "OFF" then some none else (Level.all.find? (·.label == capitals)).map some

/-- At the last level the whole journal passes. -/
theorem upTo_trace (journal : List Entry) : upTo (some .trace) journal = journal := by
  refine List.filter_eq_self.2 fun entry _ => ?_
  cases entry <;> rfl

end ScopedLambda
