import ScopedLambda.Proofs.Refusals

/-!
# What the kind of a refusal tells

A refused character is reported in one of two ways, by whether it looks like part of a word. That
is meant to say whether it could be part of a name, and mostly does. But what continues a name is
held in one table and what is alphabetic or numeric in another, of a later edition of Unicode, and
the tables part in both directions: a look-alike is alphabetic and continues no name, a bare mark
continues a name and is not alphabetic.

* `Text.without` — what one table of ranges holds and another does not, as a table.
* `Text.isLookalike`, `Text.isBareMark` — the characters on which the two tables part.
* `EndsInRun` — a text that leads up to the end of a run.

Principal results: `Text.covers_without` — the difference of two tables is exact;
`Text.isWordLike_iff` — a character that begins no token looks like part of a word if it continues a
name, the bare marks and look-alikes apart; `refusal_kind_iff` — what the kind of a refusal tells of
the refused character, and `refusal_kind_not_exact` — that it does not tell what it is meant to.
-/

set_option autoImplicit false
set_option maxRecDepth 8192

namespace ScopedLambda

open Text

namespace Text

/-! ## The difference of two tables -/

/-- The parts of a range that lie beside some ascending ranges. -/
def CodeRange.beside (range : CodeRange) : List CodeRange → List CodeRange
  | [] => [range]
  | hole :: rest =>
    if range.last < hole.first then [range]
    else
      (if range.first < hole.first then [⟨range.first, hole.first - 1⟩] else []) ++
        if hole.last < range.last then
          CodeRange.beside ⟨max range.first (hole.last + 1), range.last⟩ rest
        else []

/-- The parts of the ranges of one ascending table that lie beside those of another. What ends
before a range begins is in the way of no later range either, and is not looked at again. -/
def without : List CodeRange → List CodeRange → List CodeRange
  | [], _ => []
  | range :: rest, holes =>
    let ahead := holes.dropWhile (·.last < range.first)
    range.beside ahead ++ without rest ahead

theorem CodeRange.exists_mem_beside_iff {holes : List CodeRange} (h : Ascending holes)
    (range : CodeRange) (code : Nat) :
    (∃ part ∈ range.beside holes, part.Holds code) ↔
      range.Holds code ∧ ∀ hole ∈ holes, ¬ hole.Holds code := by
  induction holes generalizing range with
  | nil => simp [beside]
  | cons hole rest ih =>
    have hle := h.first_le_last
    have hlater := h.lt_first
    by_cases hbefore : range.last < hole.first
    · -- Then the range ends before every hole.
      have hnone : range.Holds code → ∀ other ∈ hole :: rest, ¬ other.Holds code := by
        rintro ⟨_, hlast⟩ other hmem ⟨hfirst, _⟩
        rcases List.mem_cons.1 hmem with rfl | hmem
        · omega
        · have := hlater other hmem
          omega
      rw [beside, if_pos hbefore]
      simpa using hnone
    · have hfront : (∃ part ∈ (if range.first < hole.first then
          [(⟨range.first, hole.first - 1⟩ : CodeRange)] else []), part.Holds code) ↔
            range.first ≤ code ∧ code < hole.first := by
        split
        · simp only [List.mem_singleton, exists_eq_left, Holds]
          omega
        · simp only [List.not_mem_nil, false_and, exists_false, false_iff]
          omega
      have hback : (∃ part ∈ (if hole.last < range.last then
          CodeRange.beside ⟨max range.first (hole.last + 1), range.last⟩ rest else []),
            part.Holds code) ↔
          range.Holds code ∧ hole.last < code ∧ ∀ other ∈ rest, ¬ other.Holds code := by
        split
        · rw [ih h.tail]
          simp only [Holds]
          constructor
          · rintro ⟨⟨hfirst, hlast⟩, hnone⟩
            exact ⟨⟨by omega, hlast⟩, by omega, hnone⟩
          · rintro ⟨⟨hfirst, hlast⟩, hpast, hnone⟩
            exact ⟨⟨by omega, hlast⟩, hnone⟩
        · simp only [List.not_mem_nil, false_and, exists_false, false_iff, Holds]
          omega
      rw [beside, if_neg hbefore]
      simp only [List.mem_append, or_and_right, exists_or, hfront, hback, List.forall_mem_cons]
      constructor
      · rintro (⟨hfirst, hlast⟩ | ⟨hholds, hpast, hnone⟩)
        · refine ⟨⟨hfirst, by omega⟩, fun hhole => by have := hhole.1; omega, ?_⟩
          intro other hmem hother
          have := hlater other hmem
          have := hother.1
          omega
        · exact ⟨hholds, fun hhole => by have := hhole.2; omega, hnone⟩
      · rintro ⟨hholds, hhole, hnone⟩
        by_cases hfirst : code < hole.first
        · exact .inl ⟨hholds.1, hfirst⟩
        · refine .inr ⟨hholds, ?_, hnone⟩
          by_contra hlast
          exact hhole ⟨by omega, by omega⟩

theorem Ascending.dropWhile {table : List CodeRange} (h : Ascending table)
    (p : CodeRange → Bool) : Ascending (table.dropWhile p) := by
  induction table with
  | nil => exact h
  | cons range rest ih =>
    rw [List.dropWhile_cons]
    split
    · exact ih h.tail
    · exact h

/-- What ends before a code point does not hold it. -/
theorem forall_not_holds_dropWhile_iff {holes : List CodeRange} {first code : Nat}
    (hcode : first ≤ code) :
    (∀ hole ∈ holes.dropWhile (·.last < first), ¬ hole.Holds code) ↔
      ∀ hole ∈ holes, ¬ hole.Holds code := by
  constructor
  · intro hnone hole hmem
    rw [← List.takeWhile_append_dropWhile (p := (·.last < first)) (l := holes)] at hmem
    rcases List.mem_append.1 hmem with hmem | hmem
    · have hends : hole.last < first := by simpa using List.mem_takeWhile_imp hmem
      rintro ⟨_, hlast⟩
      omega
    · exact hnone hole hmem
  · intro hnone hole hmem
    exact hnone hole ((List.dropWhile_sublist _).subset hmem)

theorem exists_mem_without_iff {table holes : List CodeRange} (htable : Ascending table)
    (hholes : Ascending holes) (code : Nat) :
    (∃ part ∈ without table holes, part.Holds code) ↔
      (∃ range ∈ table, range.Holds code) ∧ ∀ hole ∈ holes, ¬ hole.Holds code := by
  induction table generalizing holes with
  | nil => simp [without]
  | cons range rest ih =>
    have hahead := hholes.dropWhile (·.last < range.first)
    have hlater : (∃ other ∈ rest, other.Holds code) → range.first ≤ code := by
      rintro ⟨other, hmem, hfirst, _⟩
      have := htable.lt_first other hmem
      have := htable.first_le_last
      omega
    simp only [without, List.mem_append, or_and_right, exists_or, List.exists_mem_cons_iff,
      CodeRange.exists_mem_beside_iff hahead, ih htable.tail hahead]
    apply or_congr
    · exact and_congr_right fun hholds => forall_not_holds_dropWhile_iff hholds.1
    · exact and_congr_right fun hother => forall_not_holds_dropWhile_iff (hlater hother)

/-- **The difference of two tables holds what the one holds and the other does not.** -/
theorem covers_without {table holes : List CodeRange} (htable : Ascending table)
    (hholes : Ascending holes) (hwithout : Ascending (without table holes)) (code : Nat) :
    covers (without table holes) code = true ↔
      covers table code = true ∧ covers holes code = false := by
  rw [covers_iff hwithout, exists_mem_without_iff htable hholes, ← covers_iff htable,
    ← Bool.not_eq_true, covers_iff hholes]
  simp

/-! ## Where the two tables part -/

/-- What is alphabetic or numeric and continues no name. -/
def lookalikeRanges : List CodeRange := without alphanumericRanges nameTailRanges

/-- What continues a name and is neither alphabetic nor numeric, `_` and `$` apart. -/
def bareMarkRanges : List CodeRange := without nameTailRanges alphanumericRanges

/-- Whether a character looks like part of a word and can be in no name. -/
def isLookalike (c : Char) : Bool := covers lookalikeRanges c.toNat

/-- Whether a character can be in a name and does not look like part of a word. -/
def isBareMark (c : Char) : Bool := covers bareMarkRanges c.toNat

/-- The look-alikes are letters in circles and squares, and what is new in the later edition. -/
example : lookalikeRanges = [
    ⟨0x88F, 0x88F⟩, ⟨0xC5C, 0xC5C⟩, ⟨0xCDC, 0xCDC⟩, ⟨0x24B6, 0x24E9⟩, ⟨0xA7CE, 0xA7CF⟩,
    ⟨0xA7D2, 0xA7D2⟩, ⟨0xA7D4, 0xA7D4⟩, ⟨0xA7F1, 0xA7F1⟩, ⟨0x10940, 0x10959⟩, ⟨0x10EC5, 0x10EC7⟩,
    ⟨0x10EFA, 0x10EFB⟩, ⟨0x11B60, 0x11B67⟩, ⟨0x11DB0, 0x11DDB⟩, ⟨0x11DE0, 0x11DE9⟩,
    ⟨0x16EA0, 0x16EB8⟩, ⟨0x16EBB, 0x16ED3⟩, ⟨0x16FF2, 0x16FF6⟩, ⟨0x187F8, 0x187FF⟩,
    ⟨0x18D09, 0x18D1E⟩, ⟨0x18D80, 0x18DF2⟩, ⟨0x1E6C0, 0x1E6DE⟩, ⟨0x1E6E0, 0x1E6F5⟩,
    ⟨0x1E6FE, 0x1E6FF⟩, ⟨0x1F130, 0x1F149⟩, ⟨0x1F150, 0x1F169⟩, ⟨0x1F170, 0x1F189⟩,
    ⟨0x2B73A, 0x2B73F⟩, ⟨0x2CEA2, 0x2CEAD⟩, ⟨0x323B0, 0x33479⟩] := by decide +kernel

theorem lookalikeRanges_ascending : Ascending lookalikeRanges := by decide +kernel

theorem bareMarkRanges_ascending : Ascending bareMarkRanges := by decide +kernel

variable {c : Char}

theorem isLookalike_iff :
    isLookalike c = true ↔
      covers alphanumericRanges c.toNat = true ∧ covers nameTailRanges c.toNat = false :=
  covers_without alphanumericRanges_ascending nameTailRanges_ascending lookalikeRanges_ascending _

theorem isBareMark_iff :
    isBareMark c = true ↔
      covers nameTailRanges c.toNat = true ∧ covers alphanumericRanges c.toNat = false :=
  covers_without nameTailRanges_ascending alphanumericRanges_ascending bareMarkRanges_ascending _

/-- A bare mark is none of the two signs. -/
theorem ne_sign_of_isBareMark (h : isBareMark c = true) : c ≠ '_' ∧ c ≠ '$' := by
  constructor <;> rintro rfl <;> exact absurd h (by decide +kernel)

/-- Bare marks continue a name. -/
theorem isNameChar_of_isBareMark (h : isBareMark c = true) : isNameChar c = true := by
  simp [isNameChar, (isBareMark_iff.1 h).1]

/-- Look-alikes are none of the two signs. -/
theorem ne_sign_of_isLookalike (h : isLookalike c = true) : c ≠ '_' ∧ c ≠ '$' := by
  constructor <;> rintro rfl <;> exact absurd h (by decide +kernel)

/-- A look-alike that begins no name is no character of names. -/
theorem not_isNameChar_of_isLookalike (hstart : isNameStart c = false)
    (h : isLookalike c = true) : isNameChar c = false := by
  have hsign := ne_sign_of_isLookalike h
  simp [isNameChar, hstart, hsign, (isLookalike_iff.1 h).2]

/-- **A character that begins no token looks like part of a word exactly if it is a look-alike, or
continues a name and is no bare mark.** -/
theorem isWordLike_iff (hstart : isNameStart c = false) (hlambda : c ≠ 'λ') :
    isWordLike c = true ↔ isNameChar c = true ∧ isBareMark c = false ∨ isLookalike c = true := by
  by_cases hsign : c = '_' ∨ c = '$'
  · have hmark : isBareMark c = false := Bool.eq_false_iff.2 fun hmark => by
      have hne := ne_sign_of_isBareMark hmark
      rcases hsign with hsign | hsign
      · exact hne.1 hsign
      · exact hne.2 hsign
    have hword : isWordLike c = true := by rcases hsign with rfl | rfl <;> decide
    have hname : isNameChar c = true := by rcases hsign with rfl | rfl <;> decide
    simp [hword, hname, hmark]
  · rw [not_or] at hsign
    rw [← Bool.not_eq_true, isBareMark_iff, isLookalike_iff]
    simp only [isWordLike, isAlphanumeric, isNameChar, hstart, beq_false_of_ne hlambda,
      beq_false_of_ne hsign.1, beq_false_of_ne hsign.2, Bool.false_or, Bool.or_false]
    cases covers alphanumericRanges c.toNat <;> cases covers nameTailRanges c.toNat <;> simp

/-! ## Below 128 -/

/-- A table whose ranges all begin at 128 or beyond holds nothing below. -/
theorem covers_eq_false_of_ascii {table : List CodeRange} (h : Ascending table)
    (hfirst : ∀ range ∈ table, 128 ≤ range.first) {code : Nat} (hcode : code < 128) :
    covers table code = false := by
  apply Bool.eq_false_iff.2
  intro hcovers
  obtain ⟨range, hmem, hholds, _⟩ := (covers_iff h code).1 hcovers
  have := hfirst range hmem
  omega

theorem not_isLookalike_of_ascii (h : c.toNat < 128) : isLookalike c = false :=
  covers_eq_false_of_ascii lookalikeRanges_ascending (by decide +kernel) h

theorem not_isBareMark_of_ascii (h : c.toNat < 128) : isBareMark c = false :=
  covers_eq_false_of_ascii bareMarkRanges_ascending (by decide +kernel) h

/-- In ASCII names go on with letters, digits and the two signs. -/
theorem isNameChar_iff_of_ascii (h : c.toNat < 128) (hstart : isNameStart c = false) :
    isNameChar c = true ↔ c.isDigit = true ∨ c = '_' ∨ c = '$' := by
  have htail : covers nameTailRanges c.toNat = true ↔ c.isDigit = true := by
    rw [covers_iff nameTailRanges_ascending]
    have hdigit : c.isDigit = true ↔ 48 ≤ c.toNat ∧ c.toNat ≤ 57 := by
      simp only [Char.isDigit, Bool.and_eq_true, decide_eq_true_eq, UInt32.le_iff_toNat_le,
        ge_iff_le]
      exact Iff.rfl
    have hranges : ∀ range ∈ nameTailRanges, range = ⟨48, 57⟩ ∨ 128 ≤ range.first := by
      decide +kernel
    have hdigits : (⟨48, 57⟩ : CodeRange) ∈ nameTailRanges := by decide +kernel
    rw [hdigit]
    constructor
    · rintro ⟨range, hmem, hfirst, hlast⟩
      rcases hranges range hmem with rfl | hbeyond
      · exact ⟨hfirst, hlast⟩
      · omega
    · exact fun hholds => ⟨_, hdigits, hholds⟩
  simp only [isNameChar, hstart, Bool.false_or, Bool.or_eq_true, beq_iff_eq, htail]
  tauto

end Text

/-! ## The kind of a refusal -/

/-- A text that leads up to the end of the run of a name. -/
def EndsInRun (before : List Char) : Prop :=
  ∃ passed run, before = passed ++ run ∧ IsRun run

/-- The kind of a refusal is that of the refused character. -/
theorem LexicalError.fault_atOffset_iff {offset : Nat} {c : Char} :
    ((atOffset offset c).fault = .invalidNameStart ↔ isWordLike c = true) ∧
      ((atOffset offset c).fault = .unsupportedCharacter ↔ isWordLike c = false) := by
  cases h : isWordLike c <;> simp [atOffset, h]

/-- **The kind of a refusal tells whether the character could be part of a name, but for two sorts
of characters.** A text is refused for a bad beginning of a name exactly if the refused character is
a look-alike, or continues a name and is no bare mark; else the character is said to be unsupported.
So it is with every character but these that the kind tells whether names may go on with it:
look-alikes never continue a name, bare marks always do. Directly behind the run of a name no
refused character continues a name, and there only the look-alikes are taken for a beginning. In
ASCII the kind always tells, and the characters taken for a beginning are the digits and `_` and
`$`. -/
theorem refusal_kind_iff {source : String} {error : LexicalError}
    (h : scan source = .error error) :
    (error.fault = .invalidNameStart ↔
      isNameChar error.character = true ∧ isBareMark error.character = false ∨
        isLookalike error.character = true) ∧
    (error.fault = .unsupportedCharacter ↔
      isNameChar error.character = false ∧ isLookalike error.character = false ∨
        isBareMark error.character = true) ∧
    ((error.fault = .invalidNameStart ↔ isNameChar error.character = true) ↔
      isLookalike error.character = false ∧ isBareMark error.character = false) ∧
    (isLookalike error.character = true → isNameChar error.character = false) ∧
    (isBareMark error.character = true → isNameChar error.character = true) ∧
    (∃ before after, source.toList = before ++ error.character :: after ∧
      error.span.start = utf8Length before ∧
      (EndsInRun before → isNameChar error.character = false ∧
        (error.fault = .invalidNameStart ↔ isLookalike error.character = true))) ∧
    (error.character.toNat < 128 →
      (error.fault = .invalidNameStart ↔ isNameChar error.character = true) ∧
      (error.fault = .invalidNameStart ↔
        error.character.isDigit = true ∨ error.character = '_' ∨ error.character = '$')) := by
  obtain ⟨before, c, ⟨⟨after, hafter⟩, _, hmisplaced⟩, rfl⟩ := scanFrom_eq_error_iff.1 h
  have hcharacter : (LexicalError.atOffset (0 + utf8Length before) c).character = c := rfl
  obtain ⟨hinvalid, hunsupported⟩ := @LexicalError.fault_atOffset_iff (0 + utf8Length before) c
  have hstart := hmisplaced.not_start
  have hlambda : c ≠ 'λ' := by
    rintro rfl
    exact absurd hmisplaced.not_symbol (by decide)
  have hword := isWordLike_iff hstart hlambda
  have hlookalike := not_isNameChar_of_isLookalike (c := c) hstart
  have hmark := isNameChar_of_isBareMark (c := c)
  rw [hcharacter, hinvalid, hunsupported, ← Bool.not_eq_true (isWordLike c), hword]
  refine ⟨Iff.rfl, ?_, ?_, hlookalike, hmark, ?_, ?_⟩
  · cases hname : isNameChar c <;> cases hbare : isBareMark c <;> simp_all
  · cases hname : isNameChar c <;> cases hbare : isBareMark c <;> simp_all
  · refine ⟨before, after, by rw [← hafter]; simp, Nat.zero_add _, fun hrun => ?_⟩
    have hname : isNameChar c = false := Bool.eq_false_iff.2 fun hname =>
      hmisplaced.not_continued ⟨hname, hrun⟩
    simp [hname]
  · intro hascii
    rw [not_isLookalike_of_ascii hascii, not_isBareMark_of_ascii hascii,
      ← isNameChar_iff_of_ascii hascii hstart]
    simp

/-- Directly behind `x` the letter in a circle is taken for a bad beginning of a name. -/
theorem refusal_kind_iff_of_circled_letter :
    scan "xⒶ" = .error ⟨.invalidNameStart, 'Ⓐ', ⟨1, 4⟩⟩ ∧ isLookalike 'Ⓐ' = true ∧
      isNameChar 'Ⓐ' = false ∧
      ¬ (LexicalFault.invalidNameStart = .invalidNameStart ↔ isNameChar 'Ⓐ' = true) := by
  have hscan : scan "xⒶ" = .error ⟨.invalidNameStart, 'Ⓐ', ⟨1, 4⟩⟩ := by decide +kernel
  have hlookalike : isLookalike 'Ⓐ' = true := by decide +kernel
  obtain ⟨_, _, htells, hname, _⟩ := refusal_kind_iff hscan
  refine ⟨hscan, hlookalike, hname hlookalike, fun htold => ?_⟩
  rw [(htells.1 htold).1] at hlookalike
  cases hlookalike

/-- A bare mark is said to be unsupported, though names may go on with it. -/
example : scan "\u0301" = .error ⟨.unsupportedCharacter, '\u0301', ⟨0, 2⟩⟩ ∧
    isBareMark '\u0301' = true := by decide +kernel

/-- **The kind of a refusal does not tell whether names may go on with the character.** -/
theorem refusal_kind_not_exact :
    ¬ ∀ (source : String) (error : LexicalError), scan source = .error error →
      (error.fault = .invalidNameStart ↔ isNameChar error.character = true) := by
  intro h
  have hscan : scan "xⒶ" = .error ⟨.invalidNameStart, 'Ⓐ', ⟨1, 4⟩⟩ := by decide +kernel
  have hname : isNameChar 'Ⓐ' = true := (h _ _ hscan).1 rfl
  exact absurd hname (by decide +kernel)

end ScopedLambda
