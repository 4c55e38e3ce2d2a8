import ScopedLambda.Proofs.CharacterClasses

/-!
# Tokens tile their text

A tiling of a text says which tokens it has without saying how they are found: where they stand,
that nothing but blanks is left between them, and which kind goes with which lexeme.

* `symbols` — the lexemes that are symbols, with their kinds.
* `Token.Proper` — a lexeme that may be a token, has the kind it should have, and goes on as far as
  it can, given the character that follows.
* `Token.PlacedIn` — a proper token whose lexeme is what the text has at its span.
* `Tiles` — tokens in order that leave only blanks between them.

Principal results: `Token.Proper.cases` — a proper token is a symbol or a longest run;
`Tiles.exists_cons` — the token at the front of a text is the first of every tiling;
`scan_tiles` — a text is read as some tokens exactly if they tile it, and no others do.
-/

set_option autoImplicit false

namespace ScopedLambda

open Text

/-! ## Proper tokens -/

/-- The lexemes that are symbols, and their kinds. -/
def symbols : List (String × TokenKind) :=
  [(".", .dot), ("=", .equals), ("λ", .lambda), ("(", .openParen), (")", .closeParen)]

/-- A lexeme with the kind that belongs to it, before the character `next` or at the end. -/
structure Token.Proper (token : Token) (next : Option Char) : Prop where
  symbol_iff : ∀ lexeme kind, (lexeme, kind) ∈ symbols →
    (token.lexeme = lexeme ↔ token.kind = kind)
  run : token.lexeme ∉ symbols.map (·.1) →
    ∃ first rest, token.lexeme.toList = first :: rest ∧ isNameStart first = true ∧
      (∀ c ∈ rest, isNameChar c = true) ∧ ∀ c, next = some c → isNameChar c = false
  keyword_iff : token.kind = .keyword ↔
    token.lexeme = "def" ∧ ∀ c, next = some c → ¬ (c = 'λ' ∨ isBlank c = true ∧ 128 ≤ c.toNat)
  name_iff : token.kind = .name ↔
    token.lexeme ∉ symbols.map (·.1) ∧ token.kind ≠ .keyword

theorem mem_symbols_iff {lexeme : String} {kind : TokenKind} :
    (lexeme, kind) ∈ symbols ↔
      ∃ c, TokenKind.ofSymbol? c = some kind ∧ lexeme = String.ofList [c] := by
  simp only [ofSymbol?_eq_some_iff, symbols, List.mem_cons, Prod.mk.injEq, List.not_mem_nil,
    or_false]
  constructor
  · rintro (⟨rfl, rfl⟩ | ⟨rfl, rfl⟩ | ⟨rfl, rfl⟩ | ⟨rfl, rfl⟩ | ⟨rfl, rfl⟩)
    · exact ⟨'.', by simp, rfl⟩
    · exact ⟨'=', by simp, rfl⟩
    · exact ⟨'λ', by simp, rfl⟩
    · exact ⟨'(', by simp, rfl⟩
    · exact ⟨')', by simp, rfl⟩
  · rintro ⟨c, ⟨rfl, rfl⟩ | ⟨rfl, rfl⟩ | ⟨rfl, rfl⟩ | ⟨rfl, rfl⟩ | ⟨rfl, rfl⟩, rfl⟩ <;> simp

theorem mem_map_symbols_iff {lexeme : String} :
    lexeme ∈ symbols.map (·.1) ↔
      ∃ c kind, TokenKind.ofSymbol? c = some kind ∧ lexeme = String.ofList [c] := by
  simp only [List.mem_map, Prod.exists, exists_and_right, exists_eq_right, mem_symbols_iff]
  constructor
  · rintro ⟨kind, c, h, hlexeme⟩
    exact ⟨c, ⟨kind, h⟩, hlexeme⟩
  · rintro ⟨c, ⟨kind, h⟩, hlexeme⟩
    exact ⟨kind, c, h, hlexeme⟩

theorem ofSymbol?_injective {c c' : Char} {kind : TokenKind}
    (h : TokenKind.ofSymbol? c = some kind) (h' : TokenKind.ofSymbol? c' = some kind) :
    c = c' := by
  rw [ofSymbol?_eq_some_iff] at h'
  rcases ofSymbol?_eq_some_iff.1 h with
    ⟨rfl, rfl⟩ | ⟨rfl, rfl⟩ | ⟨rfl, rfl⟩ | ⟨rfl, rfl⟩ | ⟨rfl, rfl⟩ <;> simpa [eq_comm] using h'

/-- No symbol has the kind of a word. -/
theorem ofSymbol?_ne_word {c : Char} {kind : TokenKind} (h : TokenKind.ofSymbol? c = some kind) :
    kind ≠ .keyword ∧ kind ≠ .name := by
  rcases ofSymbol?_eq_some_iff.1 h with
    ⟨_, rfl⟩ | ⟨_, rfl⟩ | ⟨_, rfl⟩ | ⟨_, rfl⟩ | ⟨_, rfl⟩ <;> simp

theorem any_hidesKeyword_eq_false_iff {next : Option Char} :
    next.any hidesKeyword = false ↔
      ∀ c, next = some c → ¬ (c = 'λ' ∨ isBlank c = true ∧ 128 ≤ c.toNat) := by
  cases next with
  | none => simp
  | some c =>
    rw [Option.any_some, ← Bool.not_eq_true, hidesKeyword_iff]
    simp

theorem any_isNameChar_eq_false_iff {next : Option Char} :
    next.any isNameChar = false ↔ ∀ c, next = some c → isNameChar c = false := by
  cases next <;> simp

namespace Token

/-- A symbol is proper before anything. -/
theorem proper_symbol {c : Char} {kind : TokenKind} (h : TokenKind.ofSymbol? c = some kind)
    (offset : Nat) (next : Option Char) : (spelled kind offset [c]).Proper next where
  symbol_iff := by
    intro lexeme kind' hmem
    obtain ⟨c', h', rfl⟩ := mem_symbols_iff.1 hmem
    simp only [spelled, String.ofList_inj, List.cons.injEq, and_true]
    constructor
    · rintro rfl
      exact Option.some.inj (h.symm.trans h')
    · rintro rfl
      exact ofSymbol?_injective h h'
  run hnone := absurd (mem_map_symbols_iff.2 ⟨c, kind, h, rfl⟩) hnone
  keyword_iff := by
    refine iff_of_false (ofSymbol?_ne_word h).1 ?_
    rintro ⟨hlexeme, _⟩
    have hchars : [c] = ['d', 'e', 'f'] := String.ofList_inj.1 hlexeme
    simp at hchars
  name_iff := by
    refine iff_of_false (ofSymbol?_ne_word h).2 ?_
    rintro ⟨hnone, _⟩
    exact hnone (mem_map_symbols_iff.2 ⟨c, kind, h, rfl⟩)

/-- A longest run is proper with the kind of runs. -/
theorem proper_run {first : Char} {rest : List Char} {next : Option Char}
    (hfirst : isNameStart first = true) (hrest : ∀ c ∈ rest, isNameChar c = true)
    (hnext : next.any isNameChar = false) (offset : Nat) :
    (spelled (runKind (first :: rest) next) offset (first :: rest)).Proper next := by
  have hword {c : Char} {kind : TokenKind} (h : TokenKind.ofSymbol? c = some kind) :
      first ≠ c := by
    rintro rfl
    rw [not_symbol_of_isNameChar (isNameChar_of_isNameStart hfirst)] at h
    cases h
  have hkinds : runKind (first :: rest) next = .keyword ∨ runKind (first :: rest) next = .name := by
    unfold runKind
    split <;> simp
  have hnone : String.ofList (first :: rest) ∉ symbols.map (·.1) := by
    rw [mem_map_symbols_iff]
    rintro ⟨c, kind, h, heq⟩
    simp only [String.ofList_inj, List.cons.injEq] at heq
    exact hword h heq.1
  refine ⟨?_, fun _ => ⟨first, rest, ?_, hfirst, hrest, any_isNameChar_eq_false_iff.1 hnext⟩,
    ?_, ?_⟩
  · intro lexeme kind hmem
    obtain ⟨c, h, rfl⟩ := mem_symbols_iff.1 hmem
    refine iff_of_false ?_ ?_
    · simp only [spelled, String.ofList_inj, List.cons.injEq]
      exact fun heq => hword h heq.1
    · have := ofSymbol?_ne_word h
      rintro rfl
      rcases hkinds with hkind | hkind <;> simp_all [spelled]
  · simp [spelled]
  · have hdef : String.ofList (first :: rest) = "def" ↔ first :: rest = ['d', 'e', 'f'] := by
      rw [show "def" = String.ofList ['d', 'e', 'f'] from rfl, String.ofList_inj]
    rw [← any_hidesKeyword_eq_false_iff, spelled, hdef, runKind]
    simp [and_assoc]
  · rcases hkinds with hkind | hkind
    · simp [spelled, hkind]
    · exact iff_of_true hkind ⟨hnone, by simp [spelled, hkind]⟩

/-- **A proper token is a symbol or a longest run.** -/
theorem Proper.cases {token : Token} {next : Option Char} (h : token.Proper next) :
    (∃ c, TokenKind.ofSymbol? c = some token.kind ∧ token.lexeme.toList = [c]) ∨
      ∃ first rest, token.lexeme.toList = first :: rest ∧ isNameStart first = true ∧
        (∀ c ∈ rest, isNameChar c = true) ∧ next.any isNameChar = false ∧
        token.kind = runKind (first :: rest) next := by
  by_cases hsymbol : token.lexeme ∈ symbols.map (·.1)
  · obtain ⟨⟨lexeme, kind⟩, hmem, hlexeme⟩ := List.mem_map.1 hsymbol
    obtain ⟨c, hc, rfl⟩ := mem_symbols_iff.1 hmem
    have hkind := (h.symbol_iff _ _ hmem).1 hlexeme.symm
    refine .inl ⟨c, hkind ▸ hc, ?_⟩
    rw [← hlexeme]
    simp
  · obtain ⟨first, rest, hlexeme, hfirst, hrest, hnext⟩ := h.run hsymbol
    refine .inr ⟨first, rest, hlexeme, hfirst, hrest, any_isNameChar_eq_false_iff.2 hnext, ?_⟩
    have hdef : token.lexeme = "def" ↔ first :: rest = ['d', 'e', 'f'] := by
      rw [← String.toList_inj, hlexeme]
      rfl
    have hkeyword := h.keyword_iff
    rw [← any_hidesKeyword_eq_false_iff, hdef] at hkeyword
    unfold runKind
    split
    · rename_i hcond
      exact hkeyword.2 hcond
    · rename_i hcond
      exact h.name_iff.2 ⟨hsymbol, fun hkind => hcond (hkeyword.1 hkind)⟩

end Token

/-! ## Tilings -/

/-- A proper token whose lexeme is what the text has at its span; the text begins at `offset`. -/
def Token.PlacedIn (offset : Nat) (text : List Char) (token : Token) : Prop :=
  ∃ before after : List Char,
    text = before ++ (token.lexeme.toList ++ after) ∧
    token.span.start = offset + utf8Length before ∧
    token.span.stop = token.span.start + utf8Length token.lexeme.toList ∧
    token.Proper after.head?

/-- Tokens that stand in a text one after the other and leave only blanks between them. -/
structure Tiles (offset : Nat) (text : List Char) (tokens : List Token) : Prop where
  placed : ∀ token ∈ tokens, token.PlacedIn offset text
  nonempty : ∀ token ∈ tokens, token.span.start < token.span.stop
  ascending : tokens.Pairwise fun first second => first.span.stop ≤ second.span.start
  covered : ∀ before c after, text = before ++ c :: after → isBlank c = false →
    ∃ token ∈ tokens, token.span.start ≤ offset + utf8Length before ∧
      offset + utf8Length before < token.span.stop

/-! ## Lengths in bytes -/

theorem utf8Length_append (first second : List Char) :
    utf8Length (first ++ second) = utf8Length first + utf8Length second := by
  induction first with
  | nil => simp [utf8Length]
  | cons c rest ih =>
    rw [List.cons_append, utf8Length, ih, utf8Length]
    omega

/-- The length of characters in bytes is that of the text they make. -/
theorem utf8ByteSize_ofList (chars : List Char) :
    (String.ofList chars).utf8ByteSize = utf8Length chars := by
  induction chars with
  | nil => rfl
  | cons c rest ih =>
    rw [String.ofList_cons, String.utf8ByteSize_append, ih, utf8Length]
    simp

/-- The bytes of a text are those of its characters. -/
theorem utf8Length_toList (text : String) : utf8Length text.toList = text.utf8ByteSize := by
  rw [← utf8ByteSize_ofList, String.ofList_toList]

theorem utf8Length_eq_zero_iff {chars : List Char} : utf8Length chars = 0 ↔ chars = [] := by
  cases chars with
  | nil => simp [utf8Length]
  | cons c rest =>
    have := c.utf8Size_pos
    simp only [utf8Length, reduceCtorEq, iff_false]
    omega

/-- Of two beginnings of a text the one that is not longer in bytes begins the other. -/
theorem exists_append_of_utf8Length_le {first second rest rest' : List Char}
    (h : first ++ rest = second ++ rest') (hle : utf8Length first ≤ utf8Length second) :
    ∃ more, second = first ++ more ∧ rest = more ++ rest' := by
  rcases List.append_eq_append_iff.1 h with ⟨more, hsecond, hrest⟩ | ⟨more, hfirst, hrest⟩
  · exact ⟨more, hsecond, hrest⟩
  · rw [hfirst, utf8Length_append] at hle
    obtain rfl : more = [] := utf8Length_eq_zero_iff.1 (by omega)
    exact ⟨[], by simpa using hfirst.symm, by simpa using hrest.symm⟩

/-! ## Longer texts -/

namespace Token

theorem Proper.lexeme_ne_nil {token : Token} {next : Option Char} (h : token.Proper next) :
    token.lexeme.toList ≠ [] := by
  rcases h.cases with ⟨c, _, hlexeme⟩ | ⟨first, rest, hlexeme, _⟩ <;> simp [hlexeme]

/-- A token of the end of a text is a token of the text. -/
theorem PlacedIn.prepend {offset : Nat} {passed text : List Char} {token : Token}
    (h : token.PlacedIn (offset + utf8Length passed) text) :
    token.PlacedIn offset (passed ++ text) := by
  obtain ⟨before, after, rfl, hstart, hstop, hproper⟩ := h
  refine ⟨passed ++ before, after, by simp, ?_, hstop, hproper⟩
  rw [hstart, utf8Length_append]
  omega

/-- A token of a text that does not start before its end is a token of that end. -/
theorem PlacedIn.of_prepend {offset : Nat} {passed text : List Char} {token : Token}
    (h : token.PlacedIn offset (passed ++ text))
    (hpast : offset + utf8Length passed ≤ token.span.start) :
    token.PlacedIn (offset + utf8Length passed) text := by
  obtain ⟨before, after, heq, hstart, hstop, hproper⟩ := h
  obtain ⟨more, rfl, rfl⟩ := exists_append_of_utf8Length_le heq (by omega)
  refine ⟨more, after, rfl, ?_, hstop, hproper⟩
  rw [hstart, utf8Length_append]
  omega

end Token

namespace Tiles

/-- Nothing tiles the empty text but no tokens at all. -/
theorem nil_iff {offset : Nat} {tokens : List Token} : Tiles offset [] tokens ↔ tokens = [] := by
  constructor
  · intro h
    apply List.eq_nil_iff_forall_not_mem.2
    intro token hmem
    obtain ⟨before, after, heq, _, _, hproper⟩ := h.placed token hmem
    have hempty : token.lexeme.toList = [] := by
      have := congrArg List.length heq
      simp only [List.length_nil, List.length_append] at this
      exact List.length_eq_zero_iff.1 (by omega)
    exact hproper.lexeme_ne_nil hempty
  · rintro rfl
    exact ⟨by simp, by simp, .nil, by simp⟩

/-- **A blank in front changes no tiling.** -/
theorem cons_blank_iff {offset : Nat} {c : Char} {text : List Char} {tokens : List Token}
    (hc : isBlank c = true) :
    Tiles offset (c :: text) tokens ↔ Tiles (offset + c.utf8Size) text tokens := by
  have hlength : utf8Length [c] = c.utf8Size := by simp [utf8Length]
  constructor
  · intro h
    have hpast (token : Token) (hmem : token ∈ tokens) :
        offset + c.utf8Size ≤ token.span.start := by
      obtain ⟨before, after, heq, hstart, _, hproper⟩ := h.placed token hmem
      cases before with
      | nil =>
        -- No proper token begins with a blank.
        rcases hproper.cases with ⟨c', hsymbol, hlexeme⟩ | ⟨first, rest, hlexeme, hfirst, _⟩
        · rw [hlexeme] at heq
          obtain rfl : c = c' := by simpa using congrArg List.head? heq
          rw [not_blank_of_symbol hsymbol] at hc
          cases hc
        · rw [hlexeme] at heq
          obtain rfl : c = first := by simpa using congrArg List.head? heq
          rw [not_blank_of_isNameChar (isNameChar_of_isNameStart hfirst)] at hc
          cases hc
      | cons c' before =>
        obtain rfl : c = c' := by simpa using congrArg List.head? heq
        rw [hstart, utf8Length]
        omega
    refine ⟨?_, h.nonempty, h.ascending, ?_⟩
    · intro token hmem
      rw [← hlength]
      refine Token.PlacedIn.of_prepend (h.placed token hmem) ?_
      rw [hlength]
      exact hpast token hmem
    · intro before c' after heq hc'
      obtain ⟨token, hmem, hle, hlt⟩ := h.covered (c :: before) c' after (by rw [heq]; rfl) hc'
      rw [utf8Length, ← Nat.add_assoc] at hle hlt
      exact ⟨token, hmem, hle, hlt⟩
  · intro h
    refine ⟨?_, h.nonempty, h.ascending, ?_⟩
    · intro token hmem
      have hplaced := h.placed token hmem
      rw [← hlength] at hplaced
      exact hplaced.prepend
    · intro before c' after heq hc'
      cases before with
      | nil =>
        obtain rfl : c = c' := by simpa using congrArg List.head? heq
        rw [hc] at hc'
        cases hc'
      | cons first before =>
        obtain ⟨rfl, hrest⟩ := List.cons.inj heq
        obtain ⟨token, hmem, hle, hlt⟩ := h.covered before c' after hrest hc'
        rw [Nat.add_assoc] at hle hlt
        exact ⟨token, hmem, hle, hlt⟩

/-- **A proper token in front is the first of a tiling.** -/
theorem cons {offset : Nat} {kind : TokenKind} {run text : List Char} {tokens : List Token}
    (hproper : (Token.spelled kind offset run).Proper text.head?)
    (h : Tiles (offset + utf8Length run) text tokens) :
    Tiles offset (run ++ text) (Token.spelled kind offset run :: tokens) := by
  have hrun : 0 < utf8Length run := by
    refine Nat.pos_of_ne_zero fun hzero => hproper.lexeme_ne_nil ?_
    simpa [Token.spelled] using utf8Length_eq_zero_iff.1 hzero
  refine ⟨?_, ?_, List.pairwise_cons.2 ⟨?_, h.ascending⟩, ?_⟩
  · intro token hmem
    rcases List.mem_cons.1 hmem with rfl | hmem
    · exact ⟨[], text, by simp [Token.spelled], rfl, by simp [Token.spelled], hproper⟩
    · exact (h.placed token hmem).prepend
  · intro token hmem
    rcases List.mem_cons.1 hmem with rfl | hmem
    · simpa [Token.spelled] using hrun
    · exact h.nonempty token hmem
  · intro token hmem
    obtain ⟨before, _, _, hstart, _⟩ := h.placed token hmem
    simp only [Token.spelled]
    omega
  · intro before c after heq hc
    by_cases hinside : utf8Length before < utf8Length run
    · refine ⟨_, List.mem_cons_self, ?_, ?_⟩ <;> simp only [Token.spelled] <;> omega
    · obtain ⟨more, rfl, rfl⟩ := exists_append_of_utf8Length_le heq (by omega)
      obtain ⟨token, hmem, hle, hlt⟩ := h.covered more c after rfl hc
      rw [Nat.add_assoc, ← utf8Length_append] at hle hlt
      exact ⟨token, List.mem_cons_of_mem _ hmem, hle, hlt⟩

/-- **A tiling of a text that does not begin with a blank has a first token, which stands in
front, and the others tile the rest.** -/
theorem exists_cons {offset : Nat} {c : Char} {chars : List Char} {tokens : List Token}
    (h : Tiles offset (c :: chars) tokens) (hc : isBlank c = false) :
    ∃ kind run text tokens', c :: chars = run ++ text ∧
      tokens = Token.spelled kind offset run :: tokens' ∧
      (Token.spelled kind offset run).Proper text.head? ∧
      Tiles (offset + utf8Length run) text tokens' := by
  obtain ⟨token, hmem, hle, hlt⟩ := h.covered [] c chars rfl hc
  rw [utf8Length, Nat.add_zero] at hle hlt
  obtain ⟨before, text, heq, hstart, hstop, hproper⟩ := h.placed token hmem
  obtain rfl : before = [] := utf8Length_eq_zero_iff.1 (by omega)
  rw [utf8Length, Nat.add_zero] at hstart
  -- No token stands before the one that covers the first character.
  obtain ⟨earlier, tokens', rfl⟩ := List.append_of_mem hmem
  obtain rfl : earlier = [] := by
    apply List.eq_nil_iff_forall_not_mem.2
    intro other hother
    have hbefore := (List.pairwise_append.1 h.ascending).2.2 other hother token (by simp)
    have hnonempty := h.nonempty other (by simp [hother])
    obtain ⟨_, _, _, hother, _⟩ := h.placed other (by simp [hother])
    omega
  have htoken : token = Token.spelled token.kind offset token.lexeme.toList := by
    obtain ⟨kind, lexeme, start, stop⟩ := token
    simp_all [Token.spelled]
  rw [List.nil_append] at heq h
  refine ⟨token.kind, token.lexeme.toList, text, tokens', heq, by rw [← htoken, List.nil_append],
    ?_, ?_⟩
  · rw [← htoken]
    exact hproper
  · have hafter (other : Token) (hother : other ∈ tokens') :
        offset + utf8Length token.lexeme.toList ≤ other.span.start := by
      have := (List.pairwise_cons.1 h.ascending).1 other hother
      omega
    refine ⟨?_, ?_, (List.pairwise_cons.1 h.ascending).2, ?_⟩
    · intro other hother
      have hplaced := h.placed other (List.mem_cons_of_mem _ hother)
      rw [heq] at hplaced
      exact hplaced.of_prepend (hafter other hother)
    · exact fun other hother => h.nonempty other (List.mem_cons_of_mem _ hother)
    · intro before' c' after' heq' hc'
      have hwhole : c :: chars = (token.lexeme.toList ++ before') ++ c' :: after' := by
        rw [heq, heq', List.append_assoc]
      obtain ⟨other, hother, hle', hlt'⟩ := h.covered _ c' after' hwhole hc'
      rw [utf8Length_append, ← Nat.add_assoc] at hle' hlt'
      rcases List.mem_cons.1 hother with rfl | hother
      · omega
      · exact ⟨other, hother, hle', hlt'⟩

/-- **What the first token of a tiling is, by the first character of the text.** -/
theorem exists_cons_cases {offset : Nat} {c : Char} {rest : List Char} {tokens : List Token}
    (h : Tiles offset (c :: rest) tokens) (hc : isBlank c = false) :
    (∃ kind tokens', TokenKind.ofSymbol? c = some kind ∧
        tokens = Token.spelled kind offset [c] :: tokens' ∧
        Tiles (offset + c.utf8Size) rest tokens') ∨
      ∃ tokens', isNameStart c = true ∧
        tokens = Token.spelled
          (runKind (c :: rest.takeWhile isNameChar) (rest.dropWhile isNameChar).head?) offset
          (c :: rest.takeWhile isNameChar) :: tokens' ∧
        Tiles (offset + utf8Length (c :: rest.takeWhile isNameChar)) (rest.dropWhile isNameChar)
          tokens' := by
  obtain ⟨kind, run, text, tokens', heq, rfl, hproper, htail⟩ := h.exists_cons hc
  have hlexeme : (Token.spelled kind offset run).lexeme.toList = run := by simp [Token.spelled]
  rcases hproper.cases with ⟨c', hsymbol, hrun⟩ |
    ⟨first, others, hrun, hfirst, hothers, hnext, hkind⟩
  · rw [hlexeme] at hrun
    subst hrun
    obtain ⟨rfl, rfl⟩ := List.cons.inj heq
    refine .inl ⟨kind, tokens', hsymbol, rfl, ?_⟩
    simpa [utf8Length] using htail
  · rw [hlexeme] at hrun
    subst hrun
    obtain ⟨rfl, hrest⟩ := List.cons.inj heq
    obtain rfl : rest = others ++ text := hrest
    obtain rfl : kind = runKind (c :: others) text.head? := hkind
    refine .inr ⟨tokens', hfirst, ?_⟩
    rw [takeWhile_run hothers hnext, dropWhile_run hothers hnext]
    exact ⟨rfl, htail⟩

end Tiles

/-! ## The scanner -/

/-- A mapped result is a success exactly if the result is one. -/
theorem map_eq_ok_iff {α β ε : Type} {f : α → β} {result : Except ε α} {b : β} :
    result.map f = .ok b ↔ ∃ a, result = .ok a ∧ f a = b := by
  cases result <;> simp [Except.map]

/-- **What is left of a text is read as some tokens exactly if they tile it.** -/
theorem scanFrom_eq_ok_iff {offset : Nat} {text : List Char} {tokens : List Token} :
    scanFrom offset text = .ok tokens ↔ Tiles offset text tokens := by
  fun_induction scanFrom offset text generalizing tokens with
  | case1 offset => rw [Tiles.nil_iff, Except.ok.injEq, eq_comm]
  | case2 offset c rest hblank ih => rw [ih, Tiles.cons_blank_iff hblank]
  | case3 offset c rest hblank kind hsymbol ih =>
    rw [map_eq_ok_iff]
    constructor
    · rintro ⟨tokens', h, rfl⟩
      refine Tiles.cons (Token.proper_symbol hsymbol offset _) ?_
      simpa [utf8Length] using ih.1 h
    · intro h
      rcases h.exists_cons_cases (by simpa using hblank) with
        ⟨kind', tokens', hsymbol', rfl, htail⟩ | ⟨tokens', hstart, _⟩
      · obtain rfl : kind = kind' := Option.some.inj (hsymbol.symm.trans hsymbol')
        exact ⟨tokens', ih.2 htail, rfl⟩
      · rw [not_symbol_of_isNameChar (isNameChar_of_isNameStart hstart)] at hsymbol
        cases hsymbol
  | case4 offset c rest hblank hsymbol hstart run after =>
    rename_i ih
    rw [map_eq_ok_iff]
    constructor
    · rintro ⟨tokens', h, rfl⟩
      have hproper := Token.proper_run hstart (isNameChar_of_mem_takeWhile rest)
        (head?_dropWhile_run rest) offset
      have htiles := Tiles.cons hproper (ih.1 h)
      rwa [List.cons_append, List.takeWhile_append_dropWhile] at htiles
    · intro h
      rcases h.exists_cons_cases (by simpa using hblank) with
        ⟨kind', tokens', hsymbol', _⟩ | ⟨tokens', _, rfl, htail⟩
      · rw [hsymbol] at hsymbol'
        cases hsymbol'
      · exact ⟨tokens', ih.2 htail, rfl⟩
  | case5 offset c rest hblank hsymbol hstart =>
    simp only [reduceCtorEq, false_iff]
    intro h
    rcases h.exists_cons_cases (by simpa using hblank) with
      ⟨kind, tokens', hsymbol', _⟩ | ⟨tokens', hstart', _⟩
    · rw [hsymbol] at hsymbol'
      cases hsymbol'
    · exact hstart hstart'

/-- The characters of a run are no blanks. -/
theorem filter_not_blank_run {run : List Char} (h : ∀ c ∈ run, isNameChar c = true) :
    (run.filter fun c => !isBlank c) = run := by
  apply List.filter_eq_self.2
  intro c hmem
  simp [not_blank_of_isNameChar (h c hmem)]

/-- **The lexemes of the tokens are the text without its blanks.** -/
theorem flatMap_lexeme_of_scanFrom {offset : Nat} {text : List Char} {tokens : List Token}
    (h : scanFrom offset text = .ok tokens) :
    tokens.flatMap (·.lexeme.toList) = text.filter fun c => !isBlank c := by
  fun_induction scanFrom offset text generalizing tokens with
  | case1 offset =>
    cases h
    rfl
  | case2 offset c rest hblank ih =>
    rw [ih h, List.filter_cons_of_neg (by simp [hblank])]
  | case3 offset c rest hblank kind hsymbol ih =>
    obtain ⟨tokens', htail, rfl⟩ := map_eq_ok_iff.1 h
    rw [List.flatMap_cons, ih htail, List.filter_cons_of_pos (by simpa using hblank)]
    simp [Token.spelled]
  | case4 offset c rest hblank hsymbol hstart run after =>
    rename_i ih
    obtain ⟨tokens', htail, rfl⟩ := map_eq_ok_iff.1 h
    have hrest : (rest.filter fun c => !isBlank c) =
        rest.takeWhile isNameChar ++ after.filter fun c => !isBlank c := by
      rw [← filter_not_blank_run (isNameChar_of_mem_takeWhile rest), ← List.filter_append,
        List.takeWhile_append_dropWhile]
    rw [List.flatMap_cons, ih htail, List.filter_cons_of_pos (by simpa using hblank), hrest]
    simp [Token.spelled, run]
  | case5 offset c rest hblank hsymbol hstart => cases h

/-- **Scanning tiles the text, and nothing else does.** A text is read as some tokens if and only if
they tile it: each stands where its span says and has the kind of its lexeme, a run goes on as far
as it can, and all that lies outside the spans is blank. No other tokens tile it, and their lexemes
are the text without its blanks, in order. -/
theorem scan_tiles (source : String) :
    (∀ tokens, scan source = .ok tokens ↔ Tiles 0 source.toList tokens) ∧
    (∀ tokens other, Tiles 0 source.toList tokens → Tiles 0 source.toList other →
      other = tokens) ∧
    ∀ tokens, scan source = .ok tokens →
      tokens.flatMap (·.lexeme.toList) = source.toList.filter fun c => !isBlank c := by
  refine ⟨fun tokens => scanFrom_eq_ok_iff, ?_, fun tokens h => flatMap_lexeme_of_scanFrom h⟩
  intro tokens other h hother
  rw [← scanFrom_eq_ok_iff] at h hother
  rw [h] at hother
  exact (Except.ok.inj hother).symm

/-- `def` right before a `λ` begins a name. -/
example : (scan "defλ def").toOption.map (·.map (·.kind)) = some [.name, .lambda, .keyword] := by
  decide +kernel

end ScopedLambda
