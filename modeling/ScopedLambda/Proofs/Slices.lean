import ScopedLambda.Proofs.Parts
import ScopedLambda.Proofs.RoundTrip

/-!
# Slices

The span of a node cuts a slice out of the source, and the slice is read as the node again — moved
to the beginning of a text and numbered from nothing. The one exception is a slice that ends in a
name spelled like the keyword: what made it a name is cut off.

* `Span.slice?` — the text that the bytes of a span make.
* `EndsInDef` — tokens of which the last is a name spelled like the keyword.
* `Relabelling.shift` — moves spans and adds to identities.

Principal results: `Tiles.exists_slice` — a run of the tokens of a text tiles the slice that it
covers; `scanFrom_add` — how a text is read does not depend on where it begins;
`exists_parse_slice` — a slice whose tokens are a sentence makes the program that they derive;
`spans_locate_nodes` — all about spans of a program that was read from a text.
-/

set_option autoImplicit false

namespace ScopedLambda

open Text

/-! ## Slices of a text -/

/-- The text that the bytes of a span make, if they make one. -/
def Span.slice? (span : Span) (source : String) : Option String :=
  String.fromUTF8? (source.toByteArray.extract span.start span.stop)

/-- A span between two places of a text cuts out what stands between them. -/
theorem Span.slice?_eq {span : Span} {source : String} {before slice after : List Char}
    (hsource : source.toList = before ++ (slice ++ after)) (hstart : span.start = utf8Length before)
    (hstop : span.stop = span.start + utf8Length slice) :
    span.slice? source = some (String.ofList slice) := by
  have hsource' : source =
      String.ofList before ++ (String.ofList slice ++ String.ofList after) := by
    rw [← String.toList_inj, hsource]
    simp
  have hbefore : (String.ofList before).toByteArray.size = span.start := by
    rw [hstart, ← utf8ByteSize_ofList]
    rfl
  have hslice : (String.ofList slice).toByteArray.size = utf8Length slice :=
    utf8ByteSize_ofList slice
  have hbytes : source.toByteArray.extract span.start span.stop =
      (String.ofList slice).toByteArray := by
    rw [hsource', String.toByteArray_append, String.toByteArray_append, hstop]
    exact (ByteArray.extract_append_size_add' (i := 0) hbefore.symm).trans
      (ByteArray.extract_append_eq_left hslice.symm)
  rw [slice?, hbytes, String.fromUTF8?, dif_pos (String.ofList slice).isValidUTF8]
  rfl

/-- **A token of a text is the slice at its span.** -/
theorem Token.PlacedIn.slice?_eq {source : String} {token : Token}
    (h : token.PlacedIn 0 source.toList) : token.span.slice? source = some token.lexeme := by
  obtain ⟨before, after, hsource, hstart, hstop, _⟩ := h
  rw [Nat.zero_add] at hstart
  rw [Span.slice?_eq hsource hstart hstop, String.ofList_toList]

/-! ## Tilings of slices -/

/-- Tokens of which the last is a name spelled like the keyword. -/
def EndsInDef (tokens : List Token) : Prop :=
  ∃ last, tokens.getLast? = some last ∧ last.kind = .name ∧ last.lexeme = "def"

/-- A proper token stays proper when what follows it is cut off, unless that made it a name. -/
theorem Token.Proper.at_end {token : Token} {next : Option Char} (h : token.Proper next)
    (hdef : ¬ (token.kind = .name ∧ token.lexeme = "def")) : token.Proper none where
  symbol_iff := h.symbol_iff
  run hnone := by
    obtain ⟨first, rest, hlexeme, hfirst, hrest, _⟩ := h.run hnone
    exact ⟨first, rest, hlexeme, hfirst, hrest, by simp⟩
  keyword_iff := by
    constructor
    · intro hkind
      exact ⟨(h.keyword_iff.1 hkind).1, by simp⟩
    · rintro ⟨hlexeme, _⟩
      by_contra hkind
      refine hdef ⟨h.name_iff.2 ⟨?_, hkind⟩, hlexeme⟩
      rw [hlexeme]
      decide
  name_iff := h.name_iff

namespace Tiles

/-- The tokens of a tiling are in order. -/
theorem inOrder {offset : Nat} {text : List Char} {tokens : List Token}
    (h : Tiles offset text tokens) : Span.InOrder (tokenSpans tokens) :=
  ⟨List.forall_mem_map.2 h.nonempty, List.pairwise_map.2 h.ascending⟩

/-- From the start of one of its tokens on, a tiling tiles the rest of the text. -/
theorem exists_drop {offset : Nat} {text : List Char} {before rest : List Token} {first : Token}
    (h : Tiles offset text (before ++ first :: rest)) :
    ∃ passed left, text = passed ++ left ∧ first.span.start = offset + utf8Length passed ∧
      Tiles first.span.start left (first :: rest) := by
  obtain ⟨passed, after, rfl, hstart, _, _⟩ := h.placed first (by simp)
  have hsublist := List.sublist_append_right before (first :: rest)
  have hpast : ∀ token ∈ first :: rest, offset + utf8Length passed ≤ token.span.start := by
    intro token hmem
    rw [← hstart]
    rcases List.mem_cons.1 hmem with rfl | hlater
    · exact Nat.le_refl _
    · have := h.nonempty first (by simp)
      have := (List.pairwise_cons.1 (h.ascending.sublist hsublist)).1 token hlater
      omega
  refine ⟨passed, first.lexeme.toList ++ after, rfl, hstart, ?_⟩
  rw [hstart]
  refine ⟨?_, fun token hmem => h.nonempty token (hsublist.subset hmem),
    h.ascending.sublist hsublist, ?_⟩
  · intro token hmem
    exact (h.placed token (hsublist.subset hmem)).of_prepend (hpast token hmem)
  · intro before' c after' heq hc
    obtain ⟨token, hmem, hle, hlt⟩ := h.covered (passed ++ before') c after'
      (by rw [heq, List.append_assoc]) hc
    rw [utf8Length_append, ← Nat.add_assoc] at hle hlt
    rcases List.mem_append.1 hmem with hearlier | hmem
    · have := (List.pairwise_append.1 h.ascending).2.2 token hearlier first List.mem_cons_self
      omega
    · exact ⟨token, hmem, hle, hlt⟩

/-- Up to the end of one of its tokens, a tiling tiles the beginning of the text, if that token is
still proper there. -/
theorem exists_take {offset : Nat} {text : List Char} {init after : List Token} {last : Token}
    (h : Tiles offset text (init ++ last :: after)) (hlast : last.Proper none) :
    ∃ slice rest, text = slice ++ rest ∧ last.span.stop = offset + utf8Length slice ∧
      Tiles offset slice (init ++ [last]) := by
  obtain ⟨before, rest, rfl, hstart, hstop, _⟩ := h.placed last (by simp)
  have hsublist : (init ++ [last]).Sublist (init ++ last :: after) :=
    (List.Sublist.refl init).append (List.singleton_sublist.2 List.mem_cons_self)
  have hend : last.span.stop = offset + utf8Length (before ++ last.lexeme.toList) := by
    rw [utf8Length_append]
    omega
  refine ⟨before ++ last.lexeme.toList, rest, by simp, hend, ?_,
    fun token hmem => h.nonempty token (hsublist.subset hmem), h.ascending.sublist hsublist, ?_⟩
  · intro token hmem
    rcases List.mem_append.1 hmem with hearlier | hself
    · -- A token before the last one ends in what is before the last one.
      obtain ⟨before', rest', heq, hstart', hstop', hproper⟩ :=
        h.placed token (List.mem_append_left _ hearlier)
      have hle := (List.pairwise_append.1 h.ascending).2.2 token hearlier last List.mem_cons_self
      rw [← List.append_assoc before'] at heq
      obtain ⟨more, rfl, rfl⟩ := exists_append_of_utf8Length_le heq.symm (by
        rw [utf8Length_append]
        omega)
      refine ⟨before', more ++ last.lexeme.toList, by simp, hstart', hstop', ?_⟩
      have hhead : (more ++ (last.lexeme.toList ++ rest)).head? =
          (more ++ last.lexeme.toList).head? := by
        obtain ⟨c, chars, hlexeme⟩ := List.exists_cons_of_ne_nil hlast.lexeme_ne_nil
        cases more <;> simp [hlexeme]
      rwa [hhead] at hproper
    · obtain rfl : token = last := by simpa using hself
      exact ⟨before, [], by simp, hstart, hstop, hlast⟩
  · intro before' c after' heq hc
    obtain ⟨token, hmem, hle, hlt⟩ := h.covered before' c (after' ++ rest)
      (by rw [← List.append_assoc, heq, List.append_assoc, List.cons_append]) hc
    have hinside : utf8Length before' < utf8Length (before ++ last.lexeme.toList) := by
      have := c.utf8Size_pos
      rw [heq, utf8Length_append, utf8Length]
      omega
    rcases List.mem_append.1 hmem with hearlier | hmem
    · exact ⟨token, List.mem_append_left _ hearlier, hle, hlt⟩
    · rcases List.mem_cons.1 hmem with rfl | hlater
      · exact ⟨token, by simp, hle, hlt⟩
      · have htail := (List.pairwise_append.1 h.ascending).2.1
        have := (List.pairwise_cons.1 htail).1 token hlater
        omega

/-- **A run of the tokens of a text tiles the slice that it covers.** -/
theorem exists_slice {offset : Nat} {text : List Char} {tokens own : List Token} {span : Span}
    (h : Tiles offset text tokens) (hown : own <:+: tokens) (hspan : span.Covers (tokenSpans own))
    (hdef : ¬ EndsInDef own) :
    ∃ passed slice rest, text = passed ++ (slice ++ rest) ∧
      span.start = offset + utf8Length passed ∧ span.stop = span.start + utf8Length slice ∧
      Tiles span.start slice own := by
  obtain ⟨before, after, rfl⟩ := hown
  obtain ⟨_, _, hfirstSpan, hlastSpan, rfl⟩ := hspan
  rw [tokenSpans, List.head?_map] at hfirstSpan
  rw [tokenSpans, List.getLast?_map] at hlastSpan
  obtain ⟨head, hhead, rfl⟩ := Option.map_eq_some_iff.1 hfirstSpan
  obtain ⟨last, hlast, rfl⟩ := Option.map_eq_some_iff.1 hlastSpan
  obtain ⟨rest, hrest⟩ := List.head?_eq_some_iff.1 hhead
  obtain ⟨init, hinit⟩ := List.getLast?_eq_some_iff.1 hlast
  have hproper : last.Proper none := by
    obtain ⟨_, _, _, _, _, hproper⟩ := h.placed last (by simp [hinit])
    exact hproper.at_end fun hlexeme => hdef ⟨last, hlast, hlexeme⟩
  have hdrop : before ++ own ++ after = before ++ head :: (rest ++ after) := by simp [hrest]
  rw [hdrop] at h
  obtain ⟨passed, left, rfl, hstart, hleft⟩ := h.exists_drop
  have htake : head :: (rest ++ after) = init ++ last :: after := by
    rw [← List.cons_append, ← hrest, hinit, List.append_assoc]
    rfl
  rw [htake] at hleft
  obtain ⟨slice, remaining, rfl, hstop, hslice⟩ := hleft.exists_take hproper
  exact ⟨passed, slice, remaining, rfl, hstart, hstop, hinit ▸ hslice⟩

end Tiles

/-! ## Moved texts -/

namespace Relabelling

/-- Moves every span by some bytes and adds to every identity. -/
def shift (bytes names functions : Nat) : Relabelling where
  text := id
  span span := ⟨span.start + bytes, span.stop + bytes⟩
  name id := ⟨id.index + names⟩
  function id := ⟨id.index + functions⟩

/-- Spans that are moved alike merge to the moved span. -/
theorem textual_shift (bytes : Nat) : (shift bytes 0 0).Textual where
  text := Function.injective_id
  span first second := by simp [shift, Span.merge, Nat.add_min_add_right, Nat.add_max_add_right]
  name _ := rfl
  function _ := rfl

end Relabelling

/-- A token that is moved stays the same word. -/
theorem Token.relabel_shift (token : Token) (bytes : Nat) :
    token.relabel (.shift bytes 0 0) =
      ⟨token.kind, token.lexeme, ⟨token.span.start + bytes, token.span.stop + bytes⟩⟩ := by
  unfold relabel
  split <;> rfl

theorem Token.relabel_shift_spelled (kind : TokenKind) (offset bytes : Nat) (run : List Char) :
    (Token.spelled kind offset run).relabel (.shift bytes 0 0) =
      Token.spelled kind (offset + bytes) run := by
  rw [relabel_shift, spelled, spelled, Nat.add_right_comm offset]

/-- The refusal of a character that stands elsewhere. -/
def LexicalError.relabel (r : Relabelling) (error : LexicalError) : LexicalError :=
  ⟨error.fault, error.character, r.span error.span⟩

/-- The result of a reading with all tokens, and the refusal, moved. -/
def movedResult (bytes : Nat) (result : Except LexicalError (List Token)) :
    Except LexicalError (List Token) :=
  (result.map (List.map (·.relabel (.shift bytes 0 0)))).mapError (.relabel (.shift bytes 0 0))

theorem movedResult_map_cons (bytes : Nat) (token : Token)
    (result : Except LexicalError (List Token)) :
    movedResult bytes (result.map (token :: ·)) =
      (movedResult bytes result).map (token.relabel (.shift bytes 0 0) :: ·) := by
  cases result <;> rfl

/-- **How a text is read, or refused, does not depend on where it begins.** -/
theorem scanFrom_add (offset bytes : Nat) (text : List Char) :
    scanFrom (offset + bytes) text = movedResult bytes (scanFrom offset text) := by
  fun_induction scanFrom offset text with
  | case1 offset => simp [scanFrom, movedResult, Except.map, Except.mapError]
  | case2 offset c rest hblank ih =>
    rw [scanFrom, if_pos hblank, Nat.add_right_comm]
    exact ih
  | case3 offset c rest hblank kind hsymbol ih =>
    rw [movedResult_map_cons, Token.relabel_shift_spelled, ← ih, scanFrom, if_neg hblank, hsymbol,
      Nat.add_right_comm]
  | case4 offset c rest hblank hsymbol hstart run after =>
    rename_i ih
    rw [movedResult_map_cons, Token.relabel_shift_spelled, ← ih, scanFrom, if_neg hblank, hsymbol]
    simp only [hstart, if_true]
    rw [Nat.add_right_comm]
  | case5 offset c rest hblank hsymbol hstart =>
    have hmoved : LexicalError.atOffset (offset + bytes) c =
        (LexicalError.atOffset offset c).relabel (.shift bytes 0 0) := by
      simp [LexicalError.atOffset, LexicalError.relabel, Relabelling.shift, Nat.add_right_comm]
    rw [scanFrom, if_neg hblank, hsymbol]
    simp only [hstart, hmoved]
    rfl

theorem scanFrom_add_eq_ok_iff {offset bytes : Nat} {text : List Char} (tokens : List Token) :
    scanFrom (offset + bytes) text = .ok tokens ↔
      ∃ earlier, scanFrom offset text = .ok earlier ∧
        earlier.map (·.relabel (.shift bytes 0 0)) = tokens := by
  rw [scanFrom_add, movedResult]
  cases scanFrom offset text <;> simp [Except.map, Except.mapError]

/-! ## Moved trees -/

theorem Name.relabel_shift_shift (name : Name)
    (bytes names functions bytes' names' functions' : Nat) :
    (name.relabel (.shift bytes names functions)).relabel (.shift bytes' names' functions') =
      name.relabel (.shift (bytes + bytes') (names + names') (functions + functions')) := by
  simp [relabel, Relabelling.shift, Nat.add_assoc]

/-- Moves add up. -/
theorem Expr.relabel_shift_shift (expr : Expr)
    (bytes names functions bytes' names' functions' : Nat) :
    (expr.relabel (.shift bytes names functions)).relabel (.shift bytes' names' functions') =
      expr.relabel (.shift (bytes + bytes') (names + names') (functions + functions')) := by
  induction expr with
  | var name => simp only [relabel, Name.relabel_shift_shift]
  | lam id parameter body span ih =>
    simp only [relabel, Name.relabel_shift_shift, ih]
    simp [Relabelling.shift, Nat.add_assoc]
  | app callee argument span ihc iha =>
    simp only [relabel, ihc, iha]
    simp [Relabelling.shift, Nat.add_assoc]

theorem Program.relabel_shift_shift (program : Program)
    (bytes names functions bytes' names' functions' : Nat) :
    (program.relabel (.shift bytes names functions)).relabel (.shift bytes' names' functions') =
      program.relabel (.shift (bytes + bytes') (names + names') (functions + functions')) := by
  have hdefinition (definition : Definition) :
      (definition.relabel (.shift bytes names functions)).relabel
          (.shift bytes' names' functions') =
        definition.relabel (.shift (bytes + bytes') (names + names') (functions + functions')) := by
    simp only [Definition.relabel, Name.relabel_shift_shift, Expr.relabel_shift_shift]
    simp [Relabelling.shift, Nat.add_assoc]
  simp [relabel, Function.comp_def, hdefinition, Expr.relabel_shift_shift]

/-- **The numbers that a tree begins with are added to all its identities.** -/
theorem ExprDerivation.build_add (derivation : ExprDerivation)
    (names functions names' functions' : Nat) :
    derivation.build (names + names') (functions + functions') =
      (derivation.build names functions).relabel (.shift 0 names' functions') := by
  induction derivation generalizing names functions with
  | name word => rfl
  | function lambda parameter dot body ih =>
    have hbody := ih (names + 1) functions
    rw [Nat.add_right_comm] at hbody
    rw [build, build, hbody, Expr.relabel, Expr.span_relabel, Nat.add_right_comm functions]
    rfl
  | application openParen callee argument closeParen ihc iha =>
    have hargument := iha (names + callee.nameCount) (functions + callee.functionCount)
    rw [Nat.add_right_comm names, Nat.add_right_comm functions] at hargument
    rw [build, build, ihc, hargument, Expr.relabel]
    rfl

theorem DefinitionDerivation.build_add (derivation : DefinitionDerivation)
    (names functions names' functions' : Nat) :
    derivation.build (names + names') (functions + functions') =
      (derivation.build names functions).relabel (.shift 0 names' functions') := by
  have hexpression := derivation.expression.build_add (names + 1) functions names' functions'
  rw [Nat.add_right_comm] at hexpression
  rw [build, build, hexpression, Definition.relabel, Expr.span_relabel]
  rfl

/-! ## Slices are read again -/

/-- **A slice whose tokens are a sentence makes the program that they derive**, moved to the
beginning of a text. -/
theorem exists_parse_slice {source : String} {tokens : List Token}
    (hscan : scan source = .ok tokens) {own : ProgramDerivation} (hown : own.tokens <:+: tokens)
    {span : Span} (hspan : span.Covers (tokenSpans own.tokens)) (hdef : ¬ EndsInDef own.tokens)
    (hheights : ∀ expression ∈ own.expressions, expression.height ≤ maxNesting)
    (hnames : (own.definitions.map (·.name.lexeme)).Nodup) :
    ∃ slice copy, span.slice? source = some slice ∧ parse slice = .ok copy ∧
      ∀ names functions, copy.toProgram.relabel (.shift span.start names functions) =
        own.build.relabel (.shift 0 names functions) := by
  obtain ⟨passed, slice, rest, hsource, hstart, hstop, htiles⟩ :=
    (scanFrom_eq_ok_iff.1 hscan).exists_slice hown hspan hdef
  rw [Nat.zero_add] at hstart
  rw [← scanFrom_eq_ok_iff, ← Nat.zero_add span.start] at htiles
  obtain ⟨earlier, hearlier, hmoved⟩ := (scanFrom_add_eq_ok_iff _).1 htiles
  have hscan' : scan (String.ofList slice) = .ok earlier := by
    rw [scan, String.toList_ofList]
    exact hearlier
  have hparse : (Cursor.ofTokens own.tokens).parse = .ok ⟨own.build, own.build.table⟩ :=
    Cursor.parse_eq_ok_iff.2 ⟨own, rfl, hheights, hnames, rfl⟩
  have hsame : earlier.map (·.relabel (.shift span.start 0 0)) =
      own.tokens.map (·.relabel (.shift 0 0 0)) := by
    have hstay : own.tokens.map (·.relabel (.shift 0 0 0)) = own.tokens :=
      List.map_id'' (fun token => token.relabel_shift 0) _
    rw [hmoved, hstay]
  obtain ⟨copy, hcopy, hequal⟩ := Cursor.parse_of_relabel_eq (Relabelling.textual_shift 0)
    (Relabelling.textual_shift span.start) hsame hparse
  refine ⟨String.ofList slice, copy, Span.slice?_eq hsource hstart hstop,
    by rw [parse_eq_of_scan hscan', hcopy], ?_⟩
  intro names functions
  have hprograms := congrArg (fun program => Program.relabel (.shift 0 names functions) program)
    (congrArg LinkedProgram.toProgram hequal)
  simpa [LinkedProgram.relabel, Program.relabel_shift_shift] using hprograms

/-- The slice of an expression makes this expression alone. -/
theorem ExprDerivation.exists_parse_slice {source : String} {tokens : List Token}
    (hscan : scan source = .ok tokens) {part : ExprDerivation} (hpart : part.tokens <:+: tokens)
    (hheight : part.height ≤ maxNesting) {span : Span}
    (hspan : span.Covers (tokenSpans part.tokens)) (hdef : ¬ EndsInDef part.tokens)
    (names functions : Nat) :
    ∃ slice copy whole, span.slice? source = some slice ∧ parse slice = .ok copy ∧
      copy.definitions = [] ∧ copy.expression = some whole ∧
      whole.relabel (.shift span.start names functions) = part.build names functions := by
  let own : ProgramDerivation := ⟨[], some part⟩
  have htokens : own.tokens = part.tokens := by simp [own, ProgramDerivation.tokens]
  rw [← htokens] at hpart hspan hdef
  obtain ⟨slice, copy, hslice, hcopy, hequal⟩ := ScopedLambda.exists_parse_slice hscan hpart hspan
    hdef (by simpa [own, ProgramDerivation.expressions] using hheight) .nil
  have hmoved := hequal names functions
  have hbuild := part.build_add 0 0 names functions
  rw [Nat.zero_add, Nat.zero_add] at hbuild
  simp only [Program.relabel, own, ProgramDerivation.build, DefinitionDerivation.buildAll,
    DefinitionDerivation.nameCounts, DefinitionDerivation.functionCounts, List.map_nil,
    List.map_eq_nil_iff, Option.map_some, Program.mk.injEq, ← hbuild] at hmoved
  obtain ⟨hdefinitions, hexpression⟩ := hmoved
  obtain ⟨whole, hwhole, hrelabel⟩ := Option.map_eq_some_iff.1 hexpression
  exact ⟨slice, copy, whole, hslice, hcopy, hdefinitions, hwhole, hrelabel⟩

/-- The slice of a definition makes this definition alone. -/
theorem DefinitionDerivation.exists_parse_slice {source : String} {tokens : List Token}
    (hscan : scan source = .ok tokens) {part : DefinitionDerivation}
    (hpart : part.tokens <:+: tokens) (hheight : part.expression.height ≤ maxNesting) {span : Span}
    (hspan : span.Covers (tokenSpans part.tokens)) (hdef : ¬ EndsInDef part.tokens)
    (names functions : Nat) :
    ∃ slice copy single, span.slice? source = some slice ∧ parse slice = .ok copy ∧
      copy.definitions = [single] ∧ copy.expression = none ∧
      single.relabel (.shift span.start names functions) = part.build names functions := by
  let own : ProgramDerivation := ⟨[part], none⟩
  have htokens : own.tokens = part.tokens := by simp [own, ProgramDerivation.tokens]
  rw [← htokens] at hpart hspan hdef
  obtain ⟨slice, copy, hslice, hcopy, hequal⟩ := ScopedLambda.exists_parse_slice hscan hpart hspan
    hdef (by simpa [own, ProgramDerivation.expressions] using hheight) (List.nodup_singleton _)
  have hmoved := hequal names functions
  have hbuild := part.build_add 0 0 names functions
  rw [Nat.zero_add, Nat.zero_add] at hbuild
  simp only [Program.relabel, own, ProgramDerivation.build, DefinitionDerivation.buildAll,
    List.map_cons, List.map_nil, Option.map_none, Option.map_eq_none_iff, Program.mk.injEq,
    ← hbuild] at hmoved
  obtain ⟨hdefinitions, hexpression⟩ := hmoved
  obtain ⟨single, hsingle, hrelabel⟩ := List.map_eq_singleton_iff.1 hdefinitions
  exact ⟨slice, copy, single, hslice, hcopy, hsingle, hexpression, hrelabel⟩

/-! ## Programs -/

/-- **Spans locate nodes, and slices are nodes.** In the text of a program every name stands at its
span. What stands next to each other in a program or a node has spans in order, none of them empty,
and inside the span of the node. The tokens of the text have a derivation from which the program is
built, and every expression and every definition reaches from the first token of its part of the
derivation to the last one. If this part does not end in a name spelled like the keyword, the slice
at the span is read as this expression, or this definition, and nothing else, which differs only in
where it begins and in the numbers that names and functions begin with. -/
theorem spans_locate_nodes {source : String} {program : LinkedProgram}
    (h : parse source = .ok program) :
    (∀ name ∈ program.names, name.span.slice? source = some name.text) ∧
    Span.InOrder program.partSpans ∧
    ∃ derivation : ProgramDerivation,
      scan source = .ok derivation.tokens ∧ program.toProgram = derivation.build ∧
      (∀ root path expr, program.at? root path = some expr →
        expr.span.Holds expr.partSpans ∧
        ∃ part : ExprDerivation, ∃ names functions, derivation.at? root path = some part ∧
          part.build names functions = expr ∧ expr.span.Covers (tokenSpans part.tokens) ∧
          (¬ EndsInDef part.tokens → ∃ slice copy whole,
            expr.span.slice? source = some slice ∧ parse slice = .ok copy ∧
            copy.definitions = [] ∧ copy.expression = some whole ∧
            whole.relabel (.shift expr.span.start names functions) = expr)) ∧
      ∀ (index : Nat) (definition : Definition), program.definitions[index]? = some definition →
        definition.span.Holds definition.partSpans ∧
        ∃ part : DefinitionDerivation, ∃ names functions,
          derivation.definitions[index]? = some part ∧ part.build names functions = definition ∧
          definition.span.Covers (tokenSpans part.tokens) ∧
          (¬ EndsInDef part.tokens → ∃ slice copy single,
            definition.span.slice? source = some slice ∧ parse slice = .ok copy ∧
            copy.definitions = [single] ∧ copy.expression = none ∧
            single.relabel (.shift definition.span.start names functions) = definition) := by
  obtain ⟨tokens, hscan, hparse⟩ := exists_scan_of_parse h
  obtain ⟨derivation, htokens, hheights, _, rfl⟩ := Cursor.parse_eq_ok_iff.1 hparse
  obtain rfl : derivation.tokens = tokens := htokens
  have htiles := scanFrom_eq_ok_iff.1 hscan
  have horder {part : List Token} (hpart : part <:+: derivation.tokens) :
      Span.InOrder (tokenSpans part) :=
    htiles.inOrder.sublist (hpart.sublist.map _)
  refine ⟨?_, ProgramDerivation.inOrder_partSpans_build htiles.inOrder, derivation, hscan, rfl, ?_,
    ?_⟩
  · intro name hname
    have hmem : name.token ∈ nameTokens derivation.tokens := by
      rw [← derivation.map_token_names_build]
      exact List.mem_map_of_mem hname
    exact (htiles.placed _ (List.mem_of_mem_filter hmem)).slice?_eq
  · intro root path expr hexpr
    obtain ⟨part, names, functions, hpart, rfl, hinfix, whole, hwhole, hheight⟩ :=
      ProgramDerivation.exists_part_of_at? hexpr
    have hcovers := ExprDerivation.covers_build (horder hinfix) names functions
    refine ⟨ExprDerivation.holds_build (horder hinfix) names functions, part, names, functions,
      hpart, rfl, hcovers, ?_⟩
    intro hdef
    exact ExprDerivation.exists_parse_slice hscan hinfix
      (Nat.le_trans hheight (hheights whole hwhole)) hcovers hdef names functions
  · intro index definition hdefinition
    obtain ⟨part, names, functions, hpart, rfl, hinfix⟩ :=
      ProgramDerivation.exists_part_of_definition hdefinition
    have hcovers := DefinitionDerivation.covers_build (horder hinfix) names functions
    refine ⟨DefinitionDerivation.holds_build (horder hinfix) names functions, part, names,
      functions, hpart, rfl, hcovers, ?_⟩
    intro hdef
    have hmem : part.expression ∈ derivation.expressions :=
      List.mem_append_left _ (List.mem_map_of_mem (List.mem_of_getElem? hpart))
    exact DefinitionDerivation.exists_parse_slice hscan hinfix (hheights _ hmem) hcovers hdef names
      functions

/-- In a text with characters of two bytes the innermost application is cut out and read again. -/
theorem spans_locate_nodes_of_application :
    ∃ program slice copy whole names functions,
      parse "def é = λx.x\n(é λy.(y é))" = .ok program ∧
      program.at? none [.argument, .body] =
        some (.app (.var ⟨⟨5⟩, "y", ⟨24, 25⟩⟩) (.var ⟨⟨6⟩, "é", ⟨26, 28⟩⟩) ⟨23, 29⟩) ∧
      (⟨23, 29⟩ : Span).slice? "def é = λx.x\n(é λy.(y é))" = some slice ∧
      parse slice = .ok copy ∧ copy.definitions = [] ∧ copy.expression = some whole ∧
      whole.relabel (.shift 23 names functions) =
        .app (.var ⟨⟨5⟩, "y", ⟨24, 25⟩⟩) (.var ⟨⟨6⟩, "é", ⟨26, 28⟩⟩) ⟨23, 29⟩ := by
  have hplace : ((parse "def é = λx.x\n(é λy.(y é))").toOption.bind
      (·.at? none [.argument, .body])) =
        some (.app (.var ⟨⟨5⟩, "y", ⟨24, 25⟩⟩) (.var ⟨⟨6⟩, "é", ⟨26, 28⟩⟩) ⟨23, 29⟩) := by
    decide +kernel
  cases h : parse "def é = λx.x\n(é λy.(y é))" with
  | error error =>
    rw [h] at hplace
    cases hplace
  | ok program =>
    rw [h, Except.toOption, Option.bind_some] at hplace
    obtain ⟨_, _, _, _, _, hnodes, _⟩ := spans_locate_nodes h
    obtain ⟨_, part, names, functions, _, hbuild, _, hslice⟩ := hnodes _ _ _ hplace
    -- An application ends in a parenthesis.
    have hdef : ¬ EndsInDef part.tokens := by
      cases part with
      | name | function => simp [ExprDerivation.build] at hbuild
      | application openParen callee argument closeParen =>
        rintro ⟨last, hlast, hkind, _⟩
        simp only [ExprDerivation.tokens, ← List.append_assoc, ← List.cons_append,
          List.getLast?_concat, Option.some.injEq] at hlast
        simp [← hlast] at hkind
    obtain ⟨slice, copy, whole, hcut, hcopy, hnone, hsome, hmoved⟩ := hslice hdef
    exact ⟨program, slice, copy, whole, names, functions, rfl, hplace, hcut, hcopy, hnone, hsome,
      hmoved⟩

end ScopedLambda
