/-!
# Byte spans

A span locates a token or a node in its source by byte offsets into the UTF-8 text.

* `Span` — from the byte `start` up to, and without, the byte `stop`. Hand-made spans may run
  backwards.
* `Span.merge` — the smallest span that covers two.
* `Span.coverings` — for every span of a list the smallest one that covers it and those before it.
* `Span.emptyAt` — the empty span at an offset.
* `Span.render` — the text `start..stop`.
-/

set_option autoImplicit false

namespace ScopedLambda

/-- The bytes from `start` up to, and without, `stop`. -/
structure Span where
  start : Nat
  stop : Nat
deriving DecidableEq, Inhabited

namespace Span

/-- The smallest span that covers both. -/
def merge (first second : Span) : Span :=
  ⟨min first.start second.start, max first.stop second.stop⟩

/-- For every span of a list the smallest span that covers `covered`, it and those before it. -/
def coveringsFrom (covered : Span) : List Span → List Span
  | [] => []
  | span :: rest => covered.merge span :: coveringsFrom (covered.merge span) rest

/-- For every span of a list the smallest span that covers it and those before it. -/
def coverings : List Span → List Span
  | [] => []
  | span :: rest => span :: coveringsFrom span rest

/-- The empty span at an offset. -/
def emptyAt (offset : Nat) : Span := ⟨offset, offset⟩

/-- The text of a span. -/
def render (span : Span) : String := toString span.start ++ ".." ++ toString span.stop

theorem merge_self (span : Span) : span.merge span = span := by
  simp [merge]

theorem merge_comm (first second : Span) : first.merge second = second.merge first := by
  simp [merge, Nat.min_comm, Nat.max_comm]

theorem merge_assoc (first second third : Span) :
    (first.merge second).merge third = first.merge (second.merge third) := by
  simp [merge, Nat.min_assoc, Nat.max_assoc]

end Span

end ScopedLambda
