/-!
# Ranges of code points

A class of characters over all of Unicode is held as a table of inclusive ranges of code points,
lowest first.

* `CodeRange` — the code points from `first` to `last`, both included.
* `Ascending` — no range of a table is empty, and each begins beyond the end of the one before.
* `covers` — whether some range of an ascending table holds a code point; the search stops at the
  first range beyond it.

Principal result: `covers_iff` — on an ascending table the early stop loses nothing.
-/

set_option autoImplicit false

namespace ScopedLambda.Text

/-- The code points from `first` to `last`, both included. -/
structure CodeRange where
  first : Nat
  last : Nat
deriving DecidableEq

/-- Whether `code` lies in the range. -/
def CodeRange.Holds (range : CodeRange) (code : Nat) : Prop :=
  range.first ≤ code ∧ code ≤ range.last

/-- No range is empty, and each begins beyond the end of the one before it. -/
def Ascending : List CodeRange → Prop
  | [] => True
  | [range] => range.first ≤ range.last
  | range :: next :: rest =>
    range.first ≤ range.last ∧ range.last < next.first ∧ Ascending (next :: rest)

/-- `Ascending` is decided range by range. -/
def decideAscending : (table : List CodeRange) → Decidable (Ascending table)
  | [] => .isTrue trivial
  | [range] => inferInstanceAs (Decidable (range.first ≤ range.last))
  | range :: next :: rest =>
    have := decideAscending (next :: rest)
    inferInstanceAs (Decidable (range.first ≤ range.last ∧ range.last < next.first ∧ _))

instance (table : List CodeRange) : Decidable (Ascending table) := decideAscending table

/-- Whether an ascending table holds `code`: the first range that begins beyond `code` ends the
search. -/
def covers : List CodeRange → Nat → Bool
  | [], _ => false
  | range :: rest, code =>
    if code < range.first then false else decide (code ≤ range.last) || covers rest code

/-! ## Membership -/

theorem Ascending.tail {range : CodeRange} {rest : List CodeRange}
    (h : Ascending (range :: rest)) : Ascending rest := by
  cases rest with
  | nil => trivial
  | cons next rest => exact h.2.2

/-- In an ascending table every later range begins beyond the first one's end. -/
theorem Ascending.lt_first {range : CodeRange} {rest : List CodeRange}
    (h : Ascending (range :: rest)) : ∀ later ∈ rest, range.last < later.first := by
  induction rest generalizing range with
  | nil => simp
  | cons next rest ih =>
    intro later hmem
    have hnext : range.last < next.first := h.2.1
    rcases List.mem_cons.1 hmem with rfl | hmem
    · exact hnext
    · have hpast := ih h.2.2 later hmem
      have hle : next.first ≤ next.last := by
        cases rest with
        | nil => exact h.2.2
        | cons _ _ => exact h.2.2.1
      omega

theorem Ascending.first_le_last {range : CodeRange} {rest : List CodeRange}
    (h : Ascending (range :: rest)) : range.first ≤ range.last := by
  cases rest with
  | nil => exact h
  | cons _ _ => exact h.1

/-- **On an ascending table the search finds exactly the codes that some range holds.** -/
theorem covers_iff {table : List CodeRange} (h : Ascending table) (code : Nat) :
    covers table code = true ↔ ∃ range ∈ table, range.Holds code := by
  induction table with
  | nil => simp [covers]
  | cons range rest ih =>
    have hle := h.first_le_last
    by_cases hlt : code < range.first
    · have hnone : ∀ later ∈ rest, ¬ later.Holds code := by
        intro later hmem hholds
        have := h.lt_first later hmem
        have := hholds.1
        omega
      have hhead : ¬ range.Holds code := fun hholds => by have := hholds.1; omega
      simp only [covers, hlt, if_true, Bool.false_eq_true, List.mem_cons, exists_eq_or_imp, hhead,
        false_or, false_iff, not_exists, not_and]
      exact hnone
    · simp only [covers, hlt, if_false, Bool.or_eq_true, decide_eq_true_eq, List.mem_cons,
        exists_eq_or_imp, ih h.tail, CodeRange.Holds]
      have : range.first ≤ code := by omega
      simp [this]

end ScopedLambda.Text
