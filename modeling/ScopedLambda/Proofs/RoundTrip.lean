import ScopedLambda.Proofs.Relabelling
import ScopedLambda.Proofs.Spelling

/-!
# Printing and reading again

A program that was read from a text can be printed as lambda text and read again. What comes out is
the same program at other places — unless it has a name spelled like the keyword. Such a name is
possible where `λ` or a blank beyond ASCII follows it, and printing puts something else there; then
the printed text has more keywords than equals signs, and so it is no program at all.

Principal results: `entry_of_scan` — the tokens of a text are spelled as their outline says;
`not_exists_derivation_of_def` — with a name spelled like the keyword the printed tokens are no
sentence; `parse_toLambda` — the round trip, in both cases.
-/

set_option autoImplicit false

namespace ScopedLambda

/-! ## The tokens of a text -/

theorem parse_eq_of_scan {source : String} {tokens : List Token}
    (h : scan source = .ok tokens) : parse source = (Cursor.ofTokens tokens).parse := by
  unfold parse analyse
  rw [h]
  rfl

/-- Tokens are not refused for a character. -/
theorem Cursor.parse_ne_lexical (cursor : Cursor) (error : LexicalError) :
    cursor.parse ≠ .error (.lexical error) := by
  unfold Cursor.parse Cursor.analyse Program.analyse
  split
  · simp
  · split <;> simp

/-- A text is refused for a character exactly if it does not split into tokens. -/
theorem parse_eq_lexical_iff {source : String} {error : LexicalError} :
    parse source = .error (.lexical error) ↔ scan source = .error error := by
  constructor
  · intro h
    cases hscan : scan source with
    | error other =>
      unfold parse analyse at h
      rw [hscan] at h
      cases h
      rfl
    | ok tokens =>
      rw [parse_eq_of_scan hscan] at h
      exact absurd h (Cursor.parse_ne_lexical _ error)
  · intro h
    unfold parse analyse
    rw [h]

/-- What becomes of a text that is not refused for a character becomes of its tokens. -/
theorem exists_scan_of_parse_eq {source : String} {outcome : Except SourceError LinkedProgram}
    (h : parse source = outcome) (hlexical : ∀ error, outcome ≠ .error (.lexical error)) :
    ∃ tokens, scan source = .ok tokens ∧ (Cursor.ofTokens tokens).parse = outcome := by
  cases hscan : scan source with
  | error error => exact absurd (h.symm.trans (parse_eq_lexical_iff.2 hscan)) (hlexical error)
  | ok tokens => exact ⟨tokens, rfl, parse_eq_of_scan hscan ▸ h⟩

/-- A text that is read as a program is split into tokens. -/
theorem exists_scan_of_parse {source : String} {program : LinkedProgram}
    (h : parse source = .ok program) :
    ∃ tokens, scan source = .ok tokens ∧ (Cursor.ofTokens tokens).parse = .ok program :=
  exists_scan_of_parse_eq h (by simp)

/-- What is read as some entries is split into tokens with these entries. -/
theorem ReadsAs.scan {text : String} {entries : List (TokenKind × String)}
    (h : ReadsAs text.toList entries) :
    ∃ tokens, ScopedLambda.scan text = .ok tokens ∧ tokens.map Token.entry = entries :=
  h 0

/-- **A name is a word, and every other token is spelled as its kind is.** -/
theorem entry_of_scan {source : String} {tokens : List Token} (h : scan source = .ok tokens)
    {token : Token} (hmem : token ∈ tokens) :
    (token.kind = .name → IsRun token.lexeme.toList) ∧
      (token.kind ≠ .name → token.lexeme = token.kind.lexeme) := by
  obtain ⟨before, after, _, _, _, hproper⟩ := (scanFrom_eq_ok_iff.1 h).placed token hmem
  rcases hproper.cases with ⟨c, hsymbol, hlexeme⟩ | ⟨first, rest, hlexeme, hfirst, hrest, _, hkind⟩
  · refine ⟨fun hname => absurd hname (ofSymbol?_ne_word hsymbol).2, ?_⟩
    intro _
    rw [← String.toList_inj, hlexeme]
    rcases ofSymbol?_eq_some_iff.1 hsymbol with
      ⟨rfl, h⟩ | ⟨rfl, h⟩ | ⟨rfl, h⟩ | ⟨rfl, h⟩ | ⟨rfl, h⟩ <;> rw [h] <;> rfl
  · refine ⟨fun _ => ⟨first, rest, hlexeme, hfirst, hrest⟩, ?_⟩
    intro hname
    unfold runKind at hkind
    split at hkind
    · rename_i hcond
      rw [← String.toList_inj, hlexeme, hkind, hcond.1]
      rfl
    · exact absurd hkind hname

/-- A token of a text is what its outline is printed as, unless it is a name spelled like the
keyword. -/
theorem entry_eq_printed {source : String} {tokens : List Token} (h : scan source = .ok tokens)
    {token : Token} (hmem : token ∈ tokens)
    (hdef : token.kind = .name → token.lexeme ≠ "def") :
    token.entry = printed token.outline := by
  unfold Token.entry Token.outline printed
  by_cases hname : token.kind = .name
  · simp [hname, hdef hname]
  · simp [hname, (entry_of_scan h hmem).2 hname]

/-! ## Names in an outline -/

/-- The texts in the outline of an expression are those of its names. -/
theorem Expr.filterMap_outline (expr : Expr) :
    expr.outline.filterMap (·.2) = expr.names.map (·.text) := by
  induction expr with
  | var name => rfl
  | lam id parameter body span ih => simp [outline, names, ih]
  | app callee argument span ihc iha => simp [outline, names, ihc, iha]

theorem Program.filterMap_outline (program : Program) :
    program.outline.filterMap (·.2) = program.names.map (·.text) := by
  unfold outline names
  rw [List.filterMap_append, List.map_append]
  congr 1
  · induction program.definitions with
    | nil => rfl
    | cons definition rest ih =>
      rw [List.flatMap_cons, List.filterMap_append, ih, List.flatMap_cons, List.map_append]
      simp [Definition.outline, Expr.filterMap_outline]
  · cases program.expression with
    | none => rfl
    | some expression => simp [Expr.filterMap_outline]

/-- **The names of a program are the lexemes of its name tokens.** -/
theorem mem_names_of_parse_iff {tokens : List Token} {program : LinkedProgram}
    (h : (Cursor.ofTokens tokens).parse = .ok program) {text : String} :
    (∃ name ∈ program.names, name.text = text) ↔
      ∃ token ∈ tokens, token.kind = .name ∧ token.lexeme = text := by
  have htexts : program.names.map (·.text) = tokens.filterMap (·.outline.2) := by
    rw [← Program.filterMap_outline, Cursor.outline_of_parse h, List.filterMap_map]
    rfl
  rw [← List.mem_map, htexts, List.mem_filterMap]
  simp [Token.outline]

/-! ## Names spelled like the keyword -/

/-- Printing keeps the kind of an entry or makes it a keyword. -/
theorem kind_printed (entry : TokenKind × Option String) :
    (printed entry).1 = entry.1 ∨ (printed entry).1 = .keyword := by
  obtain ⟨kind, text⟩ := entry
  cases text with
  | none => exact .inl rfl
  | some text => by_cases hdef : text = "def" <;> simp [printed, hdef]

theorem count_keyword_printed_le (outline : List (TokenKind × Option String)) :
    (outline.map (·.1)).count .keyword ≤ ((outline.map printed).map (·.1)).count .keyword := by
  simp only [List.count, List.countP_map]
  apply List.countP_mono_left
  intro entry _ hkind
  have hkeyword : entry.1 = .keyword := by simpa using hkind
  rcases kind_printed entry with h | h <;> simp [h, hkeyword]

theorem count_equals_printed_le (outline : List (TokenKind × Option String)) :
    ((outline.map printed).map (·.1)).count .equals ≤ (outline.map (·.1)).count .equals := by
  simp only [List.count, List.countP_map]
  apply List.countP_mono_left
  intro entry _ hkind
  have hequals : (printed entry).1 = .equals := by simpa using hkind
  rcases kind_printed entry with h | h <;> simp_all

/-- A name spelled like the keyword makes one keyword more. -/
theorem count_keyword_printed_lt {outline : List (TokenKind × Option String)}
    (h : (.name, some "def") ∈ outline) :
    (outline.map (·.1)).count .keyword < ((outline.map printed).map (·.1)).count .keyword := by
  obtain ⟨before, after, rfl⟩ := List.append_of_mem h
  have hbefore := count_keyword_printed_le before
  have hafter := count_keyword_printed_le after
  have hentry : printed (.name, some "def") = (.keyword, "def") := rfl
  have hname : (TokenKind.name == .keyword) = false := rfl
  simp only [List.map_append, List.map_cons, List.count_append, List.count_cons, hentry, hname,
    beq_self_eq_true, if_true, Bool.false_eq_true, if_false]
  omega

/-- **With a name spelled like the keyword the printed tokens are no sentence.** -/
theorem not_exists_derivation_of_def {tokens again : List Token} {program : LinkedProgram}
    (h : (Cursor.ofTokens tokens).parse = .ok program)
    (hdef : ∃ name ∈ program.names, name.text = "def")
    (hagain : again.map Token.entry = program.outline.map printed) :
    ¬ ∃ derivation : ProgramDerivation, derivation.tokens = again := by
  rintro ⟨derivation, rfl⟩
  obtain ⟨original, htokens, _⟩ := Cursor.parse_eq_ok_iff.1 h
  have houtline := Cursor.outline_of_parse h
  have hkinds : program.outline.map (·.1) = original.tokens.map (·.kind) := by
    rw [houtline, htokens, List.map_map]
    rfl
  have hkinds' : (program.outline.map printed).map (·.1) = derivation.tokens.map (·.kind) := by
    rw [← hagain, List.map_map]
    rfl
  have hmem : (.name, some "def") ∈ program.outline := by
    obtain ⟨token, htoken, hname, hlexeme⟩ := (mem_names_of_parse_iff h).1 hdef
    rw [houtline, List.mem_map]
    exact ⟨token, htoken, by simp [Token.outline, hname, hlexeme]⟩
  have hlt := count_keyword_printed_lt hmem
  have hle := count_equals_printed_le program.outline
  rw [hkinds, hkinds'] at hlt hle
  have hcount := original.count_keyword
  have hcount' := derivation.count_keyword
  omega

/-! ## Texts that are relabelled as they are -/

theorem Expr.toLambda_relabel {r : Relabelling} (h : ∀ text, r.text text = text) (expr : Expr) :
    (expr.relabel r).toLambda = expr.toLambda := by
  induction expr with
  | var name => exact h name.text
  | lam id parameter body span ih => simp only [relabel, toLambda, Name.relabel, h, ih]
  | app callee argument span ihc iha => simp only [relabel, toLambda, ihc, iha]

/-- The lambda text of a program does not depend on its spans and identities. -/
theorem Program.toLambda_relabel {r : Relabelling} (h : ∀ text, r.text text = text)
    (program : Program) : (program.relabel r).toLambda = program.toLambda := by
  have hdefinition (definition : Definition) :
      (definition.relabel r).toLambda = definition.toLambda := by
    simp only [Definition.relabel, Definition.toLambda, Name.relabel, h, Expr.toLambda_relabel h]
  have hexpression (expression : Expr) : (expression.relabel r).toLambda = expression.toLambda :=
    expression.toLambda_relabel h
  unfold toLambda
  cases hexpr : program.expression <;>
    simp [relabel, hexpr, Function.comp_def, hdefinition, hexpression]

/-- Tokens of equal kinds and lexemes are equal when their spans are forgotten. -/
theorem map_relabel_forgetSpans {first second : List Token}
    (h : first.map Token.entry = second.map Token.entry) :
    first.map (·.relabel .forgetSpans) = second.map (·.relabel .forgetSpans) := by
  have hforget (token : Token) : token.relabel .forgetSpans =
      ⟨token.entry.1, token.entry.2, ⟨0, 0⟩⟩ := by
    simp [Token.relabel, Token.entry, Relabelling.forgetSpans]
  have hmap := congrArg (List.map fun entry : TokenKind × String =>
    (⟨entry.1, entry.2, ⟨0, 0⟩⟩ : Token)) h
  rw [List.map_map, List.map_map] at hmap
  simpa only [hforget, Function.comp_def] using hmap

/-! ## The round trip -/

/-- The names of a program that was read from a text are words. -/
theorem isRun_of_mem_names {source : String} {tokens : List Token} {program : LinkedProgram}
    (hscan : scan source = .ok tokens) (h : (Cursor.ofTokens tokens).parse = .ok program)
    {name : Name} (hname : name ∈ program.names) : IsRun name.text.toList := by
  obtain ⟨token, hmem, hkind, hlexeme⟩ := (mem_names_of_parse_iff h).1 ⟨name, hname, rfl⟩
  rw [← hlexeme]
  exact (entry_of_scan hscan hmem).1 hkind

/-- The lambda text of a program that was read from a text splits into the printed outline. -/
theorem exists_scan_toLambda {source : String} {tokens : List Token} {program : LinkedProgram}
    (hscan : scan source = .ok tokens) (h : (Cursor.ofTokens tokens).parse = .ok program) :
    ∃ again, scan program.toLambda = .ok again ∧
      again.map Token.entry = program.outline.map printed := by
  apply ReadsAs.scan
  apply Program.readsAs_toLambda
  intro name hname
  exact isRun_of_mem_names hscan h hname

/-- **Printing a program and reading it again gives the program back.** If no name of a program that
was read from a text is spelled like the keyword, its lambda text has the tokens of that text and
makes a program that differs in its spans alone and is printed in the same way. If some name is
spelled like the keyword, the lambda text still splits into tokens, and these are refused for their
grammar. -/
theorem parse_toLambda {source : String} {program : LinkedProgram}
    (h : parse source = .ok program) :
    ((∀ name ∈ program.names, name.text ≠ "def") →
      (∃ tokens again, scan source = .ok tokens ∧ scan program.toLambda = .ok again ∧
        again.map Token.entry = tokens.map Token.entry) ∧
      ∃ copy, parse program.toLambda = .ok copy ∧
        copy.relabel .forgetSpans = program.relabel .forgetSpans ∧
        copy.toLambda = program.toLambda) ∧
    ((∃ name ∈ program.names, name.text = "def") →
      (∃ again, scan program.toLambda = .ok again) ∧
      ∃ diagnostic, parse program.toLambda = .error (.grammar diagnostic)) := by
  obtain ⟨tokens, hscan, hparse⟩ := exists_scan_of_parse h
  obtain ⟨again, hagain, hentries⟩ := exists_scan_toLambda hscan hparse
  constructor
  · intro hnone
    have hsame : again.map Token.entry = tokens.map Token.entry := by
      rw [hentries, Cursor.outline_of_parse hparse, List.map_map]
      apply List.map_congr_left
      intro token hmem
      refine (entry_eq_printed hscan hmem ?_).symm
      intro hkind hlexeme
      obtain ⟨name, hname, htext⟩ := (mem_names_of_parse_iff hparse).2
        ⟨token, hmem, hkind, hlexeme⟩
      exact hnone name hname htext
    obtain ⟨copy, hcopy, hequal⟩ := Cursor.parse_of_relabel_eq Relabelling.textual_forgetSpans
      Relabelling.textual_forgetSpans (map_relabel_forgetSpans hsame) hparse
    refine ⟨⟨tokens, again, hscan, hagain, hsame⟩, copy, ?_, hequal, ?_⟩
    · rw [parse_eq_of_scan hagain, hcopy]
    · have htext (text : String) : Relabelling.forgetSpans.text text = text := rfl
      have hprograms := congrArg LinkedProgram.toProgram hequal
      rw [← Program.toLambda_relabel htext copy.toProgram,
        ← Program.toLambda_relabel htext program.toProgram]
      exact congrArg Program.toLambda hprograms
  · intro hdef
    refine ⟨⟨again, hagain⟩, ?_⟩
    rw [parse_eq_of_scan hagain]
    exact Cursor.parse_eq_grammar (not_exists_derivation_of_def hparse hdef hentries)

/-- A text in another layout comes back as the same program; `def` before `λ` is a name once and not
again. -/
theorem parse_toLambda_of_layout_and_def :
    (∃ program copy, parse "def f=λ x .x(f\tf)" = .ok program ∧
      parse program.toLambda = .ok copy ∧
      copy.relabel .forgetSpans = program.relabel .forgetSpans) ∧
    ∃ program diagnostic, parse "(defλx.x)" = .ok program ∧
      parse program.toLambda = .error (.grammar diagnostic) := by
  constructor
  · have hnames : ((parse "def f=λ x .x(f\tf)").toOption.any
        (·.names.all (·.text != "def"))) = true := by decide +kernel
    cases h : parse "def f=λ x .x(f\tf)" with
    | error error =>
      rw [h] at hnames
      cases hnames
    | ok program =>
      rw [h, Except.toOption, Option.any_some] at hnames
      have hnone : ∀ name ∈ program.names, name.text ≠ "def" := by simpa using hnames
      obtain ⟨_, copy, hcopy, hequal, _⟩ := (parse_toLambda h).1 hnone
      exact ⟨program, copy, rfl, hcopy, hequal⟩
  · have hnames : ((parse "(defλx.x)").toOption.any
        (·.names.any (·.text == "def"))) = true := by decide +kernel
    cases h : parse "(defλx.x)" with
    | error error =>
      rw [h] at hnames
      cases hnames
    | ok program =>
      rw [h, Except.toOption, Option.any_some] at hnames
      have hdef : ∃ name ∈ program.names, name.text = "def" := by simpa using hnames
      obtain ⟨_, diagnostic, hagain⟩ := (parse_toLambda h).2 hdef
      exact ⟨program, diagnostic, rfl, hagain⟩

end ScopedLambda
