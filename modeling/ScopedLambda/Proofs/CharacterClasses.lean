import Mathlib.Data.List.TakeWhile
import ScopedLambda.Token.Scan

/-!
# Characters belong to one class

A character is a blank, a symbol, or a character of names, and never two of these. So what a token
begins with decides how it is read, in whatever order the classes are asked for.

* `Text.Apart` — whether two tables of ranges have no code point in common.

Principal results: `not_blank_of_symbol`, `not_isNameChar_of_symbol`, `not_isNameChar_of_blank` —
the classes are disjoint; `takeWhile_run`, `dropWhile_run` — a run of name characters ends where a
character of another class begins.
-/

set_option autoImplicit false

namespace ScopedLambda

open Text

namespace Text

/-- Whether every range of one table lies beside every range of the other. -/
def Apart (first second : List CodeRange) : Prop :=
  ∀ range ∈ first, ∀ other ∈ second, range.last < other.first ∨ other.last < range.first

instance (first second : List CodeRange) : Decidable (Apart first second) :=
  inferInstanceAs (Decidable (∀ range ∈ first, ∀ other ∈ second, _ ∨ _))

/-- A code point that one of two such tables holds is not in the other. -/
theorem Apart.covers_eq_false {first second : List CodeRange} (h : Apart first second)
    (hfirst : Ascending first) (hsecond : Ascending second) {code : Nat}
    (hcode : covers first code = true) : covers second code = false := by
  obtain ⟨range, hmem, hholds⟩ := (covers_iff hfirst code).1 hcode
  apply Bool.eq_false_iff.2
  intro hcovered
  obtain ⟨other, hmem', hholds'⟩ := (covers_iff hsecond code).1 hcovered
  have := h range hmem other hmem'
  have := hholds.1
  have := hholds.2
  have := hholds'.1
  have := hholds'.2
  omega

theorem apart_blank_nameStart : Apart blankRanges nameStartRanges := by decide +kernel

theorem apart_blank_nameTail : Apart blankRanges nameTailRanges := by decide +kernel

end Text

/-- The five symbols. -/
theorem ofSymbol?_eq_some_iff {c : Char} {kind : TokenKind} :
    TokenKind.ofSymbol? c = some kind ↔
      (c = '.' ∧ kind = .dot) ∨ (c = '=' ∧ kind = .equals) ∨ (c = 'λ' ∧ kind = .lambda) ∨
        (c = '(' ∧ kind = .openParen) ∨ (c = ')' ∧ kind = .closeParen) := by
  constructor
  · intro h
    unfold TokenKind.ofSymbol? at h
    split at h <;> cases h <;> simp
  · rintro (⟨rfl, rfl⟩ | ⟨rfl, rfl⟩ | ⟨rfl, rfl⟩ | ⟨rfl, rfl⟩ | ⟨rfl, rfl⟩) <;> rfl

/-! ## The classes are disjoint -/

theorem not_blank_of_symbol {c : Char} {kind : TokenKind}
    (h : TokenKind.ofSymbol? c = some kind) : isBlank c = false := by
  rcases ofSymbol?_eq_some_iff.1 h with
    ⟨rfl, _⟩ | ⟨rfl, _⟩ | ⟨rfl, _⟩ | ⟨rfl, _⟩ | ⟨rfl, _⟩ <;> decide

/-- **No symbol continues a name.** -/
theorem not_isNameChar_of_symbol {c : Char} {kind : TokenKind}
    (h : TokenKind.ofSymbol? c = some kind) : isNameChar c = false := by
  rcases ofSymbol?_eq_some_iff.1 h with
    ⟨rfl, _⟩ | ⟨rfl, _⟩ | ⟨rfl, _⟩ | ⟨rfl, _⟩ | ⟨rfl, _⟩ <;> decide +kernel

/-- **No blank continues a name.** -/
theorem not_isNameChar_of_blank {c : Char} (h : isBlank c = true) : isNameChar c = false := by
  have hstart : isNameStart c = false :=
    apart_blank_nameStart.covers_eq_false blankRanges_ascending nameStartRanges_ascending h
  have htail : covers nameTailRanges c.toNat = false :=
    apart_blank_nameTail.covers_eq_false blankRanges_ascending nameTailRanges_ascending h
  have hsign : c ≠ '_' ∧ c ≠ '$' := by
    constructor <;> rintro rfl <;> exact absurd h (by decide)
  simp [isNameChar, hstart, htail, hsign]

theorem not_blank_of_isNameChar {c : Char} (h : isNameChar c = true) : isBlank c = false := by
  apply Bool.eq_false_iff.2
  intro hblank
  rw [not_isNameChar_of_blank hblank] at h
  cases h

theorem not_symbol_of_isNameChar {c : Char} (h : isNameChar c = true) :
    TokenKind.ofSymbol? c = none := by
  cases hsymbol : TokenKind.ofSymbol? c with
  | none => rfl
  | some kind =>
    rw [not_isNameChar_of_symbol hsymbol] at h
    cases h

theorem hidesKeyword_iff {c : Char} :
    hidesKeyword c = true ↔ c = 'λ' ∨ isBlank c = true ∧ 128 ≤ c.toNat := by
  simp [hidesKeyword]

/-- A digit continues a name. -/
theorem isNameChar_of_isDigit {c : Char} (h : c.isDigit = true) : isNameChar c = true := by
  have hrange : (⟨48, 57⟩ : CodeRange) ∈ nameTailRanges := by decide +kernel
  have hcode : 48 ≤ c.toNat ∧ c.toNat ≤ 57 := by
    simp only [Char.isDigit, Bool.and_eq_true, decide_eq_true_eq, UInt32.le_iff_toNat_le,
      ge_iff_le] at h
    exact h
  have htail : covers nameTailRanges c.toNat = true :=
    (covers_iff nameTailRanges_ascending _).2 ⟨_, hrange, hcode⟩
  simp [isNameChar, htail]

/-! ## Runs -/

theorem isNameChar_of_mem_takeWhile (chars : List Char) :
    ∀ c ∈ chars.takeWhile isNameChar, isNameChar c = true := by
  intro c hmem
  exact List.mem_takeWhile_imp hmem

/-- The run at the front of a text is what it was made of, if what follows continues no name. -/
theorem takeWhile_run {run after : List Char} (hrun : ∀ c ∈ run, isNameChar c = true)
    (hafter : after.head?.any isNameChar = false) :
    (run ++ after).takeWhile isNameChar = run := by
  rw [List.takeWhile_append_of_pos hrun]
  cases after with
  | nil => simp
  | cons c after =>
    have hc : isNameChar c = false := by simpa using hafter
    simp [hc]

theorem dropWhile_run {run after : List Char} (hrun : ∀ c ∈ run, isNameChar c = true)
    (hafter : after.head?.any isNameChar = false) :
    (run ++ after).dropWhile isNameChar = after := by
  rw [List.dropWhile_append_of_pos hrun]
  cases after with
  | nil => simp
  | cons c after =>
    have hc : isNameChar c = false := by simpa using hafter
    simp [hc]

/-- What follows the run at the front of a text continues no name. -/
theorem head?_dropWhile_run (chars : List Char) :
    (chars.dropWhile isNameChar).head?.any isNameChar = false := by
  induction chars with
  | nil => rfl
  | cons c rest ih =>
    rw [List.dropWhile_cons]
    split
    · exact ih
    · rename_i hc
      simpa using hc

end ScopedLambda
