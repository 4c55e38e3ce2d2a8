import ScopedLambda.Proofs.Slices

/-!
# Blanks between two texts

Blanks part what is before them from what is after them. What comes after is read as by itself, and
so is what comes before, except for one thing: a keyword directly before a blank beyond ASCII is
taken for a name. But for that it does not matter which blanks they are.

* `Token.followedBy` — a token of a text, when a character follows the text.
* `EndsInKeyword`, `BeginsBeyondAscii` — the two texts that do not go together.
* `unplaced` — a reading without its places: kinds and lexemes, or what was refused and why.

Principal results: `scanFrom_append_blank` — a text with one blank behind it;
`scan_blanks` — two texts with blanks between them; `blanks_interchangeable_iff` — when other blanks
make no difference.
-/

set_option autoImplicit false

namespace ScopedLambda

open Text

/-! ## A blank behind a text -/

/-- A token of a text that ends at `stop`, when the text goes on with `next`: a keyword at the end
is hidden by some characters. -/
def Token.followedBy (next : Char) (stop : Nat) (token : Token) : Token :=
  if hidesKeyword next = true ∧ token.kind = .keyword ∧ token.span.stop = stop then
    { token with kind := .name }
  else token

namespace Token

theorem followedBy_of_not_hides {next : Char} (h : hidesKeyword next = false) (stop : Nat)
    (token : Token) : token.followedBy next stop = token := by
  simp [followedBy, h]

theorem followedBy_of_kind_ne {token : Token} (h : token.kind ≠ .keyword) (next : Char)
    (stop : Nat) : token.followedBy next stop = token := by
  simp [followedBy, h]

theorem followedBy_of_stop_ne {token : Token} {stop : Nat} (h : token.span.stop ≠ stop)
    (next : Char) : token.followedBy next stop = token := by
  simp [followedBy, h]

theorem lexeme_followedBy (token : Token) (next : Char) (stop : Nat) :
    (token.followedBy next stop).lexeme = token.lexeme := by
  unfold followedBy
  split <;> rfl

/-- A run at the end of a text has the kind of runs before what follows the text. -/
theorem followedBy_spelled (run : List Char) (next : Char) (offset : Nat) :
    (spelled (runKind run none) offset run).followedBy next (offset + utf8Length run) =
      spelled (runKind run (some next)) offset run := by
  by_cases hrun : run = ['d', 'e', 'f'] <;> cases hhides : hidesKeyword next <;>
    simp [followedBy, spelled, runKind, hrun, hhides]

end Token

theorem map_map_cons (f : Token → Token) (token : Token)
    (result : Except LexicalError (List Token)) :
    (result.map (token :: ·)).map (List.map f) =
      (result.map (List.map f)).map (f token :: ·) := by
  cases result <;> rfl

/-- **A text with a blank behind it is read as by itself, but for a keyword at its end.** -/
theorem scanFrom_append_blank {c : Char} (hc : isBlank c = true) (offset : Nat)
    (text : List Char) :
    scanFrom offset (text ++ [c]) =
      (scanFrom offset text).map (List.map (·.followedBy c (offset + utf8Length text))) := by
  have hend (offset : Nat) : scanFrom offset [c] = .ok [] := by rw [scanFrom, if_pos hc, scanFrom]
  fun_induction scanFrom offset text with
  | case1 offset =>
    rw [List.nil_append, hend]
    rfl
  | case2 offset d rest hblank ih =>
    rw [List.cons_append, scanFrom, if_pos hblank, ih, utf8Length, Nat.add_assoc]
  | case3 offset d rest hblank kind hsymbol ih =>
    rw [List.cons_append, scanFrom, if_neg hblank, hsymbol, map_map_cons,
      Token.followedBy_of_kind_ne (ofSymbol?_ne_word hsymbol).1, utf8Length, ← Nat.add_assoc, ← ih]
  | case4 offset d rest hblank hsymbol hstart run after =>
    rename_i ih
    have hrest : rest ++ [c] = rest.takeWhile isNameChar ++ (after ++ [c]) := by
      rw [← List.append_assoc, List.takeWhile_append_dropWhile]
    have hwhole : d :: rest = run ++ after := by
      rw [List.cons_append, List.takeWhile_append_dropWhile]
    -- The run ends where it ended, and only at the end of the text it is followed by the blank.
    have hhead : (after ++ [c]).head?.any isNameChar = false := by
      cases hafter : after with
      | nil => exact not_isNameChar_of_blank hc
      | cons d' more =>
        have := head?_dropWhile_run rest
        rwa [show rest.dropWhile isNameChar = d' :: more from hafter] at this
    have htoken : (Token.spelled (runKind run after.head?) offset run).followedBy c
          (offset + utf8Length (d :: rest)) =
        Token.spelled (runKind run (after ++ [c]).head?) offset run := by
      rw [hwhole]
      cases after with
      | nil =>
        rw [List.append_nil]
        exact Token.followedBy_spelled run c offset
      | cons d' more =>
        refine Token.followedBy_of_stop_ne ?_ c
        have := d'.utf8Size_pos
        simp only [Token.spelled, utf8Length_append, utf8Length]
        omega
    rw [List.cons_append, scanFrom, if_neg hblank, hsymbol]
    simp only [hstart, if_true]
    rw [map_map_cons, htoken, hrest, takeWhile_run (isNameChar_of_mem_takeWhile rest) hhead,
      dropWhile_run (isNameChar_of_mem_takeWhile rest) hhead, ih, hwhole, utf8Length_append,
      ← Nat.add_assoc]
  | case5 offset d rest hblank hsymbol hstart =>
    rw [List.cons_append, scanFrom, if_neg hblank, hsymbol]
    simp only [hstart]
    rfl

/-! ## Blanks between two texts -/

/-- Blanks in front of a text move it and nothing else. -/
theorem scanFrom_blanks {blanks : List Char} (h : ∀ c ∈ blanks, isBlank c = true) (offset : Nat)
    (text : List Char) :
    scanFrom offset (blanks ++ text) = scanFrom (offset + utf8Length blanks) text := by
  induction blanks generalizing offset with
  | nil => rw [List.nil_append, utf8Length, Nat.add_zero]
  | cons c rest ih =>
    rw [List.cons_append, scanFrom, if_pos (h c List.mem_cons_self),
      ih (fun d hmem => h d (List.mem_cons_of_mem _ hmem)), utf8Length, Nat.add_assoc]

/-- **Two texts with blanks between them are split into tokens one after the other, but for a
keyword at the end of the first.** -/
theorem scan_blanks {blanks : String} {next : Char} {others : List Char}
    (hnext : blanks.toList = next :: others) (h : ∀ c ∈ blanks.toList, isBlank c = true)
    (first second : String) :
    scan (first ++ blanks ++ second) =
      (scan first).bind fun tokens =>
        (movedResult (first.utf8ByteSize + blanks.utf8ByteSize) (scan second)).map
          (tokens.map (·.followedBy next first.utf8ByteSize) ++ ·) := by
  rw [hnext] at h
  have hblank := h next List.mem_cons_self
  have htext : (first ++ blanks ++ second).toList =
      (first.toList ++ [next]) ++ (others ++ second.toList) := by simp [hnext]
  have hlength : utf8Length (first.toList ++ [next]) + utf8Length others =
      first.utf8ByteSize + blanks.utf8ByteSize := by
    rw [← utf8Length_toList first, ← utf8Length_toList blanks, hnext, utf8Length_append]
    simp only [utf8Length]
    omega
  have hsecond : scanFrom (0 + utf8Length (first.toList ++ [next])) (others ++ second.toList) =
      movedResult (first.utf8ByteSize + blanks.utf8ByteSize) (scan second) := by
    rw [scanFrom_blanks (fun c hmem => h c (List.mem_cons_of_mem _ hmem)), Nat.add_assoc, hlength]
    exact scanFrom_add 0 _ second.toList
  rw [scan, htext, scanFrom_append (parted_of_last (not_isNameChar_of_blank hblank) _),
    scanFrom_append_blank hblank, Nat.zero_add, utf8Length_toList]
  unfold joined
  rw [hsecond]
  show _ = (scanFrom 0 first.toList).bind _
  cases scanFrom 0 first.toList <;> rfl

/-! ## Other blanks -/

/-- A reading without its places: kinds and lexemes, or the refused character and why. -/
def unplaced (result : Except LexicalError (List Token)) :
    Except (LexicalFault × Char) (List (TokenKind × String)) :=
  (result.map (List.map Token.entry)).mapError fun error => (error.fault, error.character)

/-- A text that ends in the keyword: the last thing in it is the word `def`. -/
def EndsInKeyword (text : String) : Prop :=
  ∃ tokens, scan text = .ok tokens ∧
    ∃ token ∈ tokens, token.kind = .keyword ∧ token.span.stop = text.utf8ByteSize

/-- A text of which the first character is beyond ASCII. -/
def BeginsBeyondAscii (text : String) : Prop :=
  ∃ c rest, text.toList = c :: rest ∧ 128 ≤ c.toNat

theorem unplaced_movedResult (bytes : Nat) (result : Except LexicalError (List Token)) :
    unplaced (movedResult bytes result) = unplaced result := by
  cases result with
  | error error => rfl
  | ok tokens =>
    have hentry (token : Token) : (token.relabel (.shift bytes 0 0)).entry = token.entry := by
      rw [Token.relabel_shift]
      rfl
    simp [movedResult, unplaced, Except.map, Except.mapError, hentry]

/-- A blank hides a keyword exactly if it is beyond ASCII. -/
theorem hidesKeyword_iff_of_blank {c : Char} (h : isBlank c = true) :
    hidesKeyword c = true ↔ 128 ≤ c.toNat := by
  have hlambda : c ≠ 'λ' := by
    rintro rfl
    exact absurd h (by decide)
  simp [hidesKeyword_iff, h, hlambda]

theorem beginsBeyondAscii_iff {blanks : String} {next : Char} {others : List Char}
    (hnext : blanks.toList = next :: others) (h : isBlank next = true) :
    BeginsBeyondAscii blanks ↔ hidesKeyword next = true := by
  rw [hidesKeyword_iff_of_blank h, BeginsBeyondAscii, hnext]
  constructor
  · rintro ⟨c, rest, heq, hc⟩
    obtain ⟨rfl, _⟩ := List.cons.inj heq
    exact hc
  · exact fun hc => ⟨next, others, rfl, hc⟩

/-- Two characters make the same of a token unless it is a keyword at the end that only one of them
hides. -/
theorem Token.entry_followedBy_eq_iff (token : Token) (next next' : Char) (stop : Nat) :
    (token.followedBy next stop).entry = (token.followedBy next' stop).entry ↔
      ¬ (token.kind = .keyword ∧ token.span.stop = stop) ∨
        (hidesKeyword next = true ↔ hidesKeyword next' = true) := by
  unfold followedBy entry
  by_cases hend : token.kind = .keyword ∧ token.span.stop = stop
  · cases hidesKeyword next <;> cases hidesKeyword next' <;> simp [hend]
  · simp [hend]

/-- Two texts with blanks between them, without the places. -/
theorem unplaced_scan_blanks {blanks : String} {next : Char} {others : List Char}
    (hnext : blanks.toList = next :: others) (h : ∀ c ∈ blanks.toList, isBlank c = true)
    (first second : String) :
    unplaced (scan (first ++ blanks ++ second)) =
      (unplaced ((scan first).map (List.map (·.followedBy next first.utf8ByteSize)))).bind
        fun entries => (unplaced (scan second)).map (entries ++ ·) := by
  rw [scan_blanks hnext h]
  cases scan first with
  | error error => rfl
  | ok tokens =>
    rw [← unplaced_movedResult (first.utf8ByteSize + blanks.utf8ByteSize) (scan second)]
    cases movedResult (first.utf8ByteSize + blanks.utf8ByteSize) (scan second) with
    | error error => rfl
    | ok more => exact congrArg Except.ok List.map_append

/-- Two characters make the same of all tokens unless one of them is such a keyword. -/
theorem map_entry_followedBy_eq_iff (tokens : List Token) (next next' : Char) (stop : Nat) :
    (tokens.map (·.followedBy next stop)).map Token.entry =
        (tokens.map (·.followedBy next' stop)).map Token.entry ↔
      ¬ (∃ token ∈ tokens, token.kind = .keyword ∧ token.span.stop = stop) ∨
        (hidesKeyword next = true ↔ hidesKeyword next' = true) := by
  rw [List.map_map, List.map_map, List.map_inj_left]
  simp only [Function.comp_apply, Token.entry_followedBy_eq_iff]
  constructor
  · intro h
    by_cases hkeyword : ∃ token ∈ tokens, token.kind = .keyword ∧ token.span.stop = stop
    · obtain ⟨token, hmem, hend⟩ := hkeyword
      exact .inr ((h token hmem).resolve_left (not_not_intro hend))
    · exact .inl hkeyword
  · rintro (hnone | hboth) token hmem
    · exact .inl fun hend => hnone ⟨token, hmem, hend⟩
    · exact .inr hboth

/-- **Which blanks part two texts makes no difference, except for a keyword before them.** With
other blanks between them the texts are read as the same kinds and lexemes, or refused for the same
character and the same fault, if and only if the first text does not end in the keyword, or the
second is refused, or both or none of the blanks begin beyond ASCII. And whatever the blanks are,
at least the lexemes are the same, or the refused character and the fault. -/
theorem blanks_interchangeable_iff {first second blanks blanks' : String} (hne : blanks ≠ "")
    (hne' : blanks' ≠ "") (h : ∀ c ∈ blanks.toList, isBlank c = true)
    (h' : ∀ c ∈ blanks'.toList, isBlank c = true) :
    (unplaced (scan (first ++ blanks ++ second)) = unplaced (scan (first ++ blanks' ++ second)) ↔
      ¬ EndsInKeyword first ∨ (∃ error, scan second = .error error) ∨
        (BeginsBeyondAscii blanks ↔ BeginsBeyondAscii blanks')) ∧
    (unplaced (scan (first ++ blanks ++ second))).map (List.map (·.2)) =
      (unplaced (scan (first ++ blanks' ++ second))).map (List.map (·.2)) := by
  have hcons {text : String} (hne : text ≠ "") : ∃ c rest, text.toList = c :: rest :=
    List.exists_cons_of_ne_nil fun hnil => hne (String.toList_eq_nil_iff.1 hnil)
  obtain ⟨next, others, hnext⟩ := hcons hne
  obtain ⟨next', others', hnext'⟩ := hcons hne'
  rw [beginsBeyondAscii_iff hnext (h next (by simp [hnext])),
    beginsBeyondAscii_iff hnext' (h' next' (by simp [hnext'])), unplaced_scan_blanks hnext h,
    unplaced_scan_blanks hnext' h', EndsInKeyword]
  cases scan first with
  | error error => exact ⟨iff_of_true rfl (.inl (by simp)), rfl⟩
  | ok tokens =>
    cases scan second with
    | error error => exact ⟨iff_of_true rfl (.inr (.inl ⟨error, rfl⟩)), rfl⟩
    | ok more =>
      have hwords (next : Char) :
          (unplaced ((Except.ok tokens).map (List.map (·.followedBy next first.utf8ByteSize)))).bind
              (fun entries => (unplaced (.ok more)).map (entries ++ ·)) =
            .ok ((tokens.map (·.followedBy next first.utf8ByteSize)).map Token.entry ++
              more.map Token.entry) := rfl
      rw [hwords, hwords]
      constructor
      · rw [Except.ok.injEq, List.append_cancel_right_eq, map_entry_followedBy_eq_iff]
        simp
      · have hlexemes (next : Char) :
            ((tokens.map (·.followedBy next first.utf8ByteSize)).map Token.entry).map (·.2) =
              tokens.map (·.lexeme) := by
          simp only [List.map_map, Function.comp_def, Token.entry, Token.lexeme_followedBy]
        simp only [Except.map, List.map_append, hlexemes]

/-- A space, or a wide blank and a line break: behind a definition they do the same, and behind the
keyword at least the lexemes stay. -/
theorem blanks_interchangeable_iff_of_wide_blank :
    " " ≠ "" ∧ "\u3000\n" ≠ "" ∧ (∀ c ∈ " ".toList, isBlank c = true) ∧
      (∀ c ∈ "\u3000\n".toList, isBlank c = true) ∧
      unplaced (scan ("def é = λx.x" ++ " " ++ "(é é)")) =
        unplaced (scan ("def é = λx.x" ++ "\u3000\n" ++ "(é é)")) ∧
      (unplaced (scan ("def" ++ " " ++ "x"))).map (List.map (·.2)) =
        (unplaced (scan ("def" ++ "\u3000\n" ++ "x"))).map (List.map (·.2)) := by
  have hspace : ∀ c ∈ " ".toList, isBlank c = true := List.all_eq_true.1 (by decide)
  have hwide : ∀ c ∈ "\u3000\n".toList, isBlank c = true := List.all_eq_true.1 (by decide)
  have hends : ¬ EndsInKeyword "def é = λx.x" := by
    rintro ⟨tokens, hscan, token, hmem, hend⟩
    have hnone : ((scan "def é = λx.x").toOption.getD []).all
        (fun token => token.kind ≠ .keyword ∨ token.span.stop ≠ "def é = λx.x".utf8ByteSize) =
          true := by
      decide +kernel
    rw [hscan] at hnone
    have hother := List.all_eq_true.1 hnone token hmem
    simp only [decide_eq_true_eq] at hother
    exact hother.elim (fun hkind => hkind hend.1) fun hstop => hstop hend.2
  refine ⟨by decide, by decide, hspace, hwide, ?_, ?_⟩
  · exact (blanks_interchangeable_iff (by decide) (by decide) hspace hwide).1.2 (.inl hends)
  · exact (blanks_interchangeable_iff (by decide) (by decide) hspace hwide).2

/-- **A keyword is lost before a blank beyond ASCII.** So blanks may not be put for each other. -/
theorem blanks_not_interchangeable :
    ¬ ∀ first second blanks blanks' : String, blanks ≠ "" → blanks' ≠ "" →
      (∀ c ∈ blanks.toList, isBlank c = true) → (∀ c ∈ blanks'.toList, isBlank c = true) →
      unplaced (scan (first ++ blanks ++ second)) =
        unplaced (scan (first ++ blanks' ++ second)) := by
  intro h
  have hsame := h "def" "x" " " "\u00a0" (by decide) (by decide) (List.all_eq_true.1 (by decide))
    (List.all_eq_true.1 (by decide))
  have hdiffer : unplaced (scan ("def" ++ " " ++ "x")) ≠
      unplaced (scan ("def" ++ "\u00a0" ++ "x")) := by
    decide +kernel
  exact hdiffer hsame

end ScopedLambda
