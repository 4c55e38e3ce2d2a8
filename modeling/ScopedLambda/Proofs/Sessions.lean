import ScopedLambda.Proofs.OpenExpressions
import ScopedLambda.Session

/-!
# Sessions on one cursor

A cursor may be moved, asked and read from in any order. None of that changes the tokens, and a
program is always read from where the cursor stands as if the tokens to come were all there are. A
session that counts open expressions gives the same answers, and between its steps none is open.

* `Cursor.Over` — what a cursor over some tokens answers, and how it moves.
* `Cursor.ReadsAfresh` — programs are read from a cursor as from the tokens to come alone.
* `CountedCursor` — a cursor with a count of open expressions, and its steps.
* `CountedCursor.CountsOpen` — while a program is read the count is right.

Principal results: `Cursor.over_tokens`; `Cursor.readsAfresh`; `Cursor.index_performAll_parse` —
reading over and over reaches the end; `CountedCursor.performAll_eq` — a session that counts is a
session; `CountedCursor.sessions_reusable` — all this after any steps.
-/

set_option autoImplicit false

namespace ScopedLambda

/-! ## Questions and moves -/

namespace Cursor

/-- A cursor over some tokens. It answers by them and by its index; away from the ends its moves go
one token on and one token back and undo each other, and at an end nothing happens. -/
structure Over (tokens : List Token) (cursor : Cursor) : Prop where
  tokens_eq : cursor.tokens = tokens
  index_le : cursor.index ≤ tokens.length
  peek_eq : cursor.peek? = tokens[cursor.index]?
  hasNext_iff : cursor.hasNext = true ↔ cursor.index < tokens.length
  hasPrevious_iff : cursor.hasPrevious = true ↔ 0 < cursor.index
  endSpan_eq : cursor.endSpan = .emptyAt (tokens.getLast?.elim 0 (·.span.stop))
  next_inside : cursor.index < tokens.length →
    cursor.next.1 = tokens[cursor.index]? ∧ cursor.next.2.index = cursor.index + 1 ∧
      cursor.next.2.previous = (cursor.next.1, cursor)
  next_at_end : cursor.index = tokens.length → cursor.next = (none, cursor)
  previous_inside : 0 < cursor.index →
    cursor.previous.1 = tokens[cursor.index - 1]? ∧ cursor.previous.2.index + 1 = cursor.index ∧
      cursor.previous.2.next = (cursor.previous.1, cursor)
  previous_at_start : cursor.index = 0 → cursor.previous = (none, cursor)

theorem hasNext_iff_index_lt (cursor : Cursor) :
    cursor.hasNext = true ↔ cursor.index < cursor.tokens.length := by
  simp [hasNext, index, tokens, List.length_pos_iff]

theorem hasPrevious_iff_index_pos (cursor : Cursor) :
    cursor.hasPrevious = true ↔ 0 < cursor.index := by
  simp [hasPrevious, index, List.length_pos_iff]

/-- A step forward takes the token that is to come. -/
theorem next_inside {cursor : Cursor} (h : cursor.hasNext = true) :
    cursor.next.1 = cursor.peek? ∧ cursor.next.2.index = cursor.index + 1 ∧
      cursor.next.2.previous = (cursor.next.1, cursor) := by
  refine ⟨?_, ?_, previous_next h⟩
  all_goals
    obtain ⟨passed, rest⟩ := cursor
    cases rest with
    | nil => cases h
    | cons token rest => rfl

/-- A step back takes the token that was passed last. -/
theorem previous_inside {cursor : Cursor} (h : cursor.hasPrevious = true) :
    cursor.previous.1 = cursor.tokens[cursor.index - 1]? ∧
      cursor.previous.2.index + 1 = cursor.index ∧
      cursor.previous.2.next = (cursor.previous.1, cursor) := by
  refine ⟨?_, ?_, next_previous h⟩
  all_goals
    obtain ⟨passed, rest⟩ := cursor
    cases passed with
    | nil => cases h
    | cons token passed => simp [previous, index, tokens]

theorem next_at_end {cursor : Cursor} (h : ¬ cursor.hasNext = true) :
    cursor.next = (none, cursor) := by
  obtain ⟨passed, rest⟩ := cursor
  cases rest with
  | nil => rfl
  | cons token rest => exact absurd rfl h

theorem previous_at_start {cursor : Cursor} (h : ¬ cursor.hasPrevious = true) :
    cursor.previous = (none, cursor) := by
  obtain ⟨passed, rest⟩ := cursor
  cases passed with
  | nil => rfl
  | cons token passed => exact absurd rfl h

/-- **Every cursor is one over its tokens.** -/
theorem over_tokens (cursor : Cursor) : cursor.Over cursor.tokens where
  tokens_eq := rfl
  index_le := cursor.index_le_length
  peek_eq := (Passes.refl cursor).getElem?_tokens.symm
  hasNext_iff := cursor.hasNext_iff_index_lt
  hasPrevious_iff := cursor.hasPrevious_iff_index_pos
  endSpan_eq := rfl
  next_inside hlt := by
    rw [(Passes.refl cursor).getElem?_tokens]
    exact next_inside (cursor.hasNext_iff_index_lt.2 hlt)
  next_at_end hindex := next_at_end (by rw [hasNext_iff_index_lt]; omega)
  previous_inside hpos := previous_inside (cursor.hasPrevious_iff_index_pos.2 hpos)
  previous_at_start hindex := previous_at_start (by rw [hasPrevious_iff_index_pos]; omega)

end Cursor

/-! ## Reading afresh -/

theorem Relabelling.regular_unchanged : unchanged.Regular where
  merge _ _ := rfl
  past _ := rfl
  name _ := rfl
  function _ := rfl

theorem Token.relabel_unchanged (token : Token) : token.relabel .unchanged = token := by
  simp [relabel, Relabelling.unchanged]

theorem GrammarFault.relabel_unchanged (fault : GrammarFault) :
    fault.relabel .unchanged = fault := by
  cases fault with
  | unexpectedToken token due | nestedTooDeeply token =>
    rw [relabel, Token.relabel_unchanged]
  | unexpectedEnd due position => rfl

namespace Cursor

/-- The tokens to come by themselves. -/
def fresh (cursor : Cursor) : Cursor := ofTokens (cursor.tokens.drop cursor.index)

theorem fresh_eq (cursor : Cursor) : cursor.fresh = ofTokens cursor.rest := by
  have hindex : cursor.index = cursor.passed.reverse.length := List.length_reverse.symm
  rw [fresh, tokens, hindex, List.drop_left]

/-- Programs are read from a cursor as from the tokens to come by themselves: the same program or the
same refusal, and as many tokens passed. If any token is to come, some are passed. -/
structure ReadsAfresh (cursor : Cursor) : Prop where
  answer_eq : (cursor.perform .parse).1 = (cursor.fresh.perform .parse).1
  index_eq : (cursor.perform .parse).2.index = cursor.index + (cursor.fresh.perform .parse).2.index
  advances : cursor.hasNext = true → cursor.index < (cursor.perform .parse).2.index

/-- **From a cursor on, tokens are read as by themselves.** -/
theorem readProgram_fresh (cursor : Cursor) :
    cursor.readProgram.1 = cursor.fresh.readProgram.1 ∧
      cursor.readProgram.2.index = cursor.index + cursor.fresh.readProgram.2.index := by
  have hrest : cursor.rest = cursor.rest.map (·.relabel .unchanged) := by
    simp [Token.relabel_unchanged]
  obtain ⟨hread, hindex⟩ := readProgram_of_rest Relabelling.regular_unchanged rfl rfl hrest
  rw [fresh_eq]
  refine ⟨hread.trans ?_, hindex.trans (Nat.add_comm _ _)⟩
  cases (ofTokens cursor.rest).readProgram.1 with
  | ok program => exact congrArg Except.ok program.relabel_unchanged
  | error fault => exact congrArg Except.error fault.relabel_unchanged

/-- What is read decides what is answered. -/
theorem parse_congr {cursor other : Cursor} (h : cursor.readProgram.1 = other.readProgram.1) :
    cursor.parse = other.parse := by
  cases hread : other.readProgram.1 with
  | ok program => rw [parse_of_readProgram_ok hread, parse_of_readProgram_ok (h.trans hread)]
  | error fault => rw [parse_of_readProgram_error hread, parse_of_readProgram_error (h.trans hread)]

end Cursor

/-- What fails has passed some tokens, unless none is there. -/
theorem Agenda.exists_passes_of_failsFrom {cursor last : Cursor} {fault : GrammarFault}
    (h : program.FailsFrom cursor fault last) :
    ∃ taken, cursor.Passes taken last ∧ (cursor.rest ≠ [] → taken ≠ []) := by
  obtain ⟨taken, middle, left, hpasses, hfollow, hrefuses⟩ := h
  cases hrefuses with
  | unexpected | tooDeep =>
    exact ⟨_, hpasses.trans (Cursor.Passes.refl _).cons, fun _ => by simp⟩
  | superfluous =>
    -- Where nothing is due, the agenda of a program has gone on.
    refine ⟨taken, hpasses, fun _ hnil => ?_⟩
    subst hnil
    cases hfollow
  | missing =>
    refine ⟨taken, hpasses, fun hsome hnil => hsome ?_⟩
    rw [hpasses.rest, hnil]
    rfl

namespace Cursor

/-- **A reading passes tokens forward, and some if any is to come.** -/
theorem exists_passes_readProgram (cursor : Cursor) :
    ∃ taken, cursor.Passes taken cursor.readProgram.2 ∧ (cursor.rest ≠ [] → taken ≠ []) := by
  rcases hread : cursor.readProgram with ⟨fault | program, last⟩
  · unfold readProgram at hread
    split at hread
    · cases hread
    · rename_i hfails
      cases hread
      exact Agenda.exists_passes_of_failsFrom (Reader.readProgram_failsFrom hfails)
  · obtain ⟨_, _, _, _, rfl⟩ := readProgram_ok_iff.1 hread
    exact ⟨cursor.rest, ⟨(List.append_nil _).symm, rfl⟩, id⟩

/-- **A step keeps the tokens.** -/
theorem tokens_perform (cursor : Cursor) (step : Step) :
    (cursor.perform step).2.tokens = cursor.tokens := by
  cases step with
  | next => exact cursor.tokens_next
  | previous => exact cursor.tokens_previous
  | peek | hasNext | hasPrevious | endSpan => rfl
  | parse =>
    obtain ⟨_, hpasses, _⟩ := cursor.exists_passes_readProgram
    show cursor.analyse.2.tokens = _
    rw [analyse_snd, hpasses.tokens_eq]

theorem tokens_performAll (cursor : Cursor) (steps : List Step) :
    (cursor.performAll steps).2.tokens = cursor.tokens := by
  induction steps generalizing cursor with
  | nil => rfl
  | cons step steps ih => exact (ih _).trans (cursor.tokens_perform step)

/-- **From wherever a cursor stands, programs are read afresh.** -/
theorem readsAfresh (cursor : Cursor) : cursor.ReadsAfresh where
  answer_eq := congrArg Answer.program (parse_congr cursor.readProgram_fresh.1)
  index_eq := by
    show cursor.analyse.2.index = cursor.index + cursor.fresh.analyse.2.index
    rw [analyse_snd, analyse_snd]
    exact cursor.readProgram_fresh.2
  advances h := by
    obtain ⟨taken, hpasses, hsome⟩ := cursor.exists_passes_readProgram
    have htaken : taken ≠ [] := hsome (by simpa [hasNext] using h)
    show cursor.index < cursor.analyse.2.index
    rw [analyse_snd, hpasses.index_eq]
    exact Nat.lt_add_of_pos_right (List.length_pos_iff.2 htaken)

/-- **Reading over and over reaches the end**, with one reading for each token at most. -/
theorem index_performAll_parse (count : Nat) (cursor : Cursor)
    (hcount : cursor.tokens.length ≤ cursor.index + count) :
    (cursor.performAll (.replicate count .parse)).2.index = cursor.tokens.length := by
  induction count generalizing cursor with
  | zero => exact Nat.le_antisymm cursor.index_le_length hcount
  | succ count ih =>
    have htokens := cursor.tokens_perform .parse
    have hindex := cursor.readsAfresh.index_eq
    have hadvances := cursor.readsAfresh.advances
    rw [hasNext_iff_index_lt] at hadvances
    have hle := cursor.index_le_length
    refine (ih (cursor.perform .parse).2 ?_).trans (congrArg List.length htokens)
    rw [htokens]
    omega

end Cursor

/-! ## Sessions that count -/

/-- A cursor, and how many expressions are open. -/
structure CountedCursor where
  cursor : Cursor
  depth : Nat
deriving DecidableEq

namespace CountedCursor

/-- The cursor before the first of some tokens, with nothing open. -/
def ofTokens (tokens : List Token) : CountedCursor := ⟨.ofTokens tokens, 0⟩

/-- Reads a program from the cursor on, and counts on. -/
def read (counted : CountedCursor) : EStateM.Result GrammarFault CountedState Program :=
  Counter.countProgram (.start counted.cursor counted.depth)

/-- The state in which the reading of a program ends. -/
def last (counted : CountedCursor) : CountedState :=
  match counted.read with
  | .ok _ last => last
  | .error _ last => last

/-- The program that is read, or the reason why there is none. -/
def parse (counted : CountedCursor) : Except SourceError LinkedProgram :=
  match counted.read with
  | .ok program _ => program.analyse.outcome
  | .error fault _ => .error (.grammar fault.diagnostic)

/-- The answer to a step, and the cursor after it. Reading a program is the only step that counts. -/
def perform (counted : CountedCursor) : Step → Answer × CountedCursor
  | .parse => (.program counted.parse, ⟨counted.last.reading.cursor, counted.last.depth⟩)
  | step =>
    let (answer, cursor) := counted.cursor.perform step
    (answer, { counted with cursor })

/-- The answers to a sequence of steps, and the cursor after them. -/
def performAll (counted : CountedCursor) : List Step → List Answer × CountedCursor
  | [] => ([], counted)
  | step :: steps =>
    let (answer, middle) := counted.perform step
    let (answers, last) := middle.performAll steps
    (answer :: answers, last)

/-- Where nothing is open, a program is read by counting as it is read without, and the count is
right. -/
theorem parse_eq_and_sound_last (cursor : Cursor) :
    parse ⟨cursor, 0⟩ = cursor.parse ∧ ∃ reading, reading.cursor = cursor.analyse.2 ∧
      CountedState.Sound cursor 0 (last ⟨cursor, 0⟩) reading := by
  have hsame := Counter.counts_countProgram _ _ (CountedState.behind_start cursor)
  unfold parse last read
  generalize Counter.countProgram _ = result at hsame ⊢
  cases hread : Reader.readProgram (.start cursor) with
  | ok program reading =>
    have hcursor : cursor.readProgram = (.ok program, reading.cursor) := by
      rw [Cursor.readProgram, hread]
    rw [hread] at hsame
    cases hsame with
    | ok hdone =>
      obtain ⟨_, _, hbehind⟩ := hdone
      refine ⟨(Cursor.parse_of_readProgram_ok (congrArg Prod.fst hcursor)).symm, reading, ?_,
        hbehind.toSound⟩
      rw [Cursor.analyse_snd, hcursor]
  | error fault reading =>
    have hcursor : cursor.readProgram = (.error fault, reading.cursor) := by
      rw [Cursor.readProgram, hread]
    rw [hread] at hsame
    cases hsame with
    | error hsound =>
      refine ⟨(Cursor.parse_of_readProgram_error (congrArg Prod.fst hcursor)).symm, reading, ?_,
        hsound⟩
      rw [Cursor.analyse_snd, hcursor]

/-- **A step that counts is a step, and leaves nothing open.** -/
theorem perform_eq (cursor : Cursor) (step : Step) :
    perform ⟨cursor, 0⟩ step = ((cursor.perform step).1, ⟨(cursor.perform step).2, 0⟩) := by
  cases step with
  | next | previous | peek | hasNext | hasPrevious | endSpan => rfl
  | parse =>
    obtain ⟨hparse, reading, hcursor, hsound⟩ := parse_eq_and_sound_last cursor
    show (Answer.program (parse ⟨cursor, 0⟩), CountedCursor.mk (last ⟨cursor, 0⟩).reading.cursor
      (last ⟨cursor, 0⟩).depth) = (.program cursor.parse, ⟨cursor.analyse.2, 0⟩)
    rw [hparse, hsound.reading_eq, hsound.depth_eq, hcursor]

/-- **A session that counts is a session, and leaves nothing open.** -/
theorem performAll_eq (cursor : Cursor) (steps : List Step) :
    performAll ⟨cursor, 0⟩ steps =
      ((cursor.performAll steps).1, ⟨(cursor.performAll steps).2, 0⟩) := by
  induction steps generalizing cursor with
  | nil => rfl
  | cons step steps ih =>
    unfold performAll
    rw [perform_eq]
    dsimp only
    rw [ih]
    rfl

/-- The reading of `((.` stops where a third open expression would begin; afterwards none is open. -/
example :
    let opened : Token := ⟨.openParen, "(", ⟨0, 1⟩⟩
    let dot : Token := ⟨.dot, ".", ⟨2, 3⟩⟩
    (performAll (ofTokens [opened, opened, dot]) [.parse]).2 = ⟨⟨[dot, opened, opened], []⟩, 0⟩ ∧
      (last (ofTokens [opened, opened, dot])).moments = [⟨2, 2⟩, ⟨1, 1⟩, ⟨0, 0⟩] ∧
      (last (ofTokens [opened, opened, dot])).peak = 3 := by
  decide +kernel

/-- While a program is read, at most 256 expressions are ever open, and before each token that is
taken the count is the number of those that have begun and are not complete. -/
structure CountsOpen (counted : CountedCursor) : Prop where
  peak_le : counted.last.peak ≤ 256
  moments : ∀ moment ∈ counted.last.moments, moment.depth ≤ 256 ∧
    ∀ depth, OpenAfter depth (counted.cursor.kindsUpTo moment.index) ↔ depth = moment.depth
  covers : ∀ index, counted.cursor.index ≤ index → index < counted.last.reading.cursor.index →
    ∃ moment ∈ counted.last.moments, moment.index = index

theorem countsOpen (cursor : Cursor) : CountsOpen ⟨cursor, 0⟩ := by
  obtain ⟨_, reading, _, hsound⟩ := parse_eq_and_sound_last cursor
  refine ⟨hsound.peak_le, fun moment hmem => ?_, ?_⟩
  · obtain ⟨hle, hopen⟩ := hsound.moments moment hmem
    refine ⟨hle, fun depth => ⟨fun h => h.unique hopen, ?_⟩⟩
    rintro rfl
    exact hopen
  · rw [hsound.reading_eq]
    exact hsound.covers

/-- **A cursor can be driven and reused by any steps.** After any of them it still is a cursor over
the same tokens, on which each move undoes the other, and no expression is open. Programs are read
from where it stands as from the tokens to come by themselves, some token is passed each time if any
is left, and so the end is reached. While a program is read, the count of open expressions is right
and at most 256. -/
theorem sessions_reusable (tokens : List Token) (steps : List Step) :
    let session := (ofTokens tokens).performAll steps
    let counted := session.2
    session.1 = ((Cursor.ofTokens tokens).performAll steps).1 ∧
    counted.cursor = ((Cursor.ofTokens tokens).performAll steps).2 ∧ counted.depth = 0 ∧
    counted.cursor.Over tokens ∧ counted.cursor.ReadsAfresh ∧
    (∀ count, tokens.length ≤ counted.cursor.index + count →
      (counted.cursor.performAll (.replicate count .parse)).2.index = tokens.length) ∧
    counted.CountsOpen := by
  have hsession := performAll_eq (.ofTokens tokens) steps
  have htokens := (Cursor.ofTokens tokens).tokens_performAll steps
  rw [Cursor.tokens_ofTokens] at htokens
  rw [ofTokens, hsession]
  generalize ((Cursor.ofTokens tokens).performAll steps).2 = cursor at htokens
  subst htokens
  exact ⟨rfl, rfl, rfl, cursor.over_tokens, cursor.readsAfresh,
    fun count hcount => cursor.index_performAll_parse count hcount, countsOpen cursor⟩

end CountedCursor

end ScopedLambda
