/-!
# Equality of outcomes

An operation that can be refused returns `Except`. Two outcomes are equal when both are refusals
for equal reasons or both are equal results, and that is decided by deciding the parts.
-/

set_option autoImplicit false

namespace ScopedLambda

instance outcomeDecidableEq {ε α : Type} [DecidableEq ε] [DecidableEq α] :
    DecidableEq (Except ε α)
  | .ok first, .ok second => decidable_of_iff (first = second) (by simp)
  | .error first, .error second => decidable_of_iff (first = second) (by simp)
  | .ok _, .error _ => .isFalse (by simp)
  | .error _, .ok _ => .isFalse (by simp)

/-- An outcome of which something is known as an option is a result. -/
theorem exists_ok_of_toOption {ε α β : Type} {outcome : Except ε α} {f : α → β} {b : β}
    (h : outcome.toOption.map f = some b) : ∃ a, outcome = .ok a ∧ f a = b := by
  cases outcome with
  | error reason => cases h
  | ok a => exact ⟨a, rfl, Option.some.inj h⟩

end ScopedLambda
