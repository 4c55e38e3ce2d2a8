import ScopedLambda.Proofs.FirstFault
import ScopedLambda.Proofs.InStep
import ScopedLambda.Proofs.Outcomes

/-!
# Renaming and layout

Tokens may be moved about and their names be replaced by others: as long as different names stay
different, nothing comes of the tokens that did not come of them before. Neither the reader nor the
walk looks at a span or at a lexeme otherwise than to hand it on or to compare two names.

* `Token.Renamed` — a token and another one of the same kind, spelled alike or, if they are names,
  as a renaming says.
* `Relabelling.rename` — renames, and forgets all spans.
* `SourceError.relabel` — the repeated name that a relabelled program has.
* `OutcomeRenamed` — the outcomes of two lists of tokens that differ in names and layout alone.

Principal results: `Program.outcome_analyse_relabel` — what becomes of a relabelled program;
`Cursor.found_of_parse` — what is said to be found is the token at fault; `Cursor.parse_renamed` —
parsing commutes with renaming and ignores layout.
-/

set_option autoImplicit false

namespace ScopedLambda

/-! ## Renamed tokens -/

/-- Renames, and puts one and the same span everywhere. -/
def Relabelling.rename (f : String → String) : Relabelling := ⟨f, fun _ => ⟨0, 0⟩, id, id⟩

theorem Relabelling.textual_rename {f : String → String} (hf : Function.Injective f) :
    (rename f).Textual where
  text := hf
  span _ _ := (Span.merge_self _).symm
  name _ := rfl
  function _ := rfl

theorem Relabelling.regular_rename (f : String → String) : (rename f).Regular where
  merge _ _ := (Span.merge_self _).symm
  past _ := rfl
  name _ := rfl
  function _ := rfl

/-- The other token has the same kind; if it is a name, it is spelled as `f` says, and else in the
same way. Where the two stand does not matter. -/
structure Token.Renamed (f : String → String) (token other : Token) : Prop where
  kind : other.kind = token.kind
  lexeme : other.lexeme = if token.kind = .name then f token.lexeme else token.lexeme

theorem Token.Renamed.relabel_eq {f : String → String} {token other : Token}
    (h : token.Renamed f other) :
    other.relabel .forgetSpans = token.relabel (.rename f) := by
  have hforget : other.relabel .forgetSpans = ⟨other.kind, other.lexeme, ⟨0, 0⟩⟩ := by
    simp [Token.relabel, Relabelling.forgetSpans]
  rw [hforget, h.kind, h.lexeme]
  rfl

/-- Renamed tokens cannot be told apart when the first ones are renamed and all spans forgotten. -/
theorem map_relabel_of_renamed {f : String → String} {tokens others : List Token}
    (h : List.Forall₂ (Token.Renamed f) tokens others) :
    others.map (·.relabel .forgetSpans) = tokens.map (·.relabel (.rename f)) := by
  induction h with
  | nil => rfl
  | cons hfirst _ ih => rw [List.map_cons, List.map_cons, hfirst.relabel_eq, ih]

/-! ## Linking relabelled programs -/

/-- The error with its name and its place relabelled, if it is about a repeated name. -/
def SourceError.relabel (r : Relabelling) : SourceError → SourceError
  | duplicateDefinition text span => duplicateDefinition (r.text text) (r.span span)
  | error => error

/-- **What becomes of a relabelled program is what became of the program, relabelled.** -/
theorem Program.outcome_analyse_relabel {r : Relabelling} (h : r.Faithful) (program : Program) :
    (program.relabel r).analyse.outcome =
      (program.analyse.outcome.map (·.relabel r)).mapError (.relabel r) := by
  have hnames : (program.relabel r).definitions.map (·.name.text) =
      (program.definitions.map (·.name.text)).map r.text := by
    simp [Program.relabel, Definition.relabel, Name.relabel]
  rcases program.outcome_analyse_cases with hok | ⟨index, definition, hget, hfirst, herror⟩
  · have hnodup := (outcome_analyse_eq_ok_iff.1 hok).1
    rw [hok]
    refine outcome_analyse_eq_ok_iff.2 ⟨?_, ?_⟩
    · rwa [hnames, List.nodup_map_iff h.text]
    · rw [table_relabel h]
      rfl
  · have hget' : (program.relabel r).definitions[index]? = some (definition.relabel r) := by
      simp [Program.relabel, hget]
    have hfirst' : FirstRepeatedAt ((program.relabel r).definitions.map (·.name.text)) index := by
      rwa [hnames, firstRepeatedAt_map_iff h.text]
    rw [herror, analyse_eq_of_firstRepeatedAt hget' hfirst']
    rfl

/-- Where identities stay as they are, the two directions of a table do. -/
theorem BindingTable.bindings_relabel {r : Relabelling} (h : r.Textual) (table : BindingTable) :
    (table.relabel r).bindings = table.bindings ∧ (table.relabel r).uses = table.uses := by
  have hbinder : Binder.relabel r = id := by
    funext binder
    cases binder with
    | definition index => rfl
    | function id => exact congrArg Binder.function (h.function id)
  have hname : r.name = id := funext h.name
  simp [relabel, hbinder, hname]

/-! ## Outcomes of renamed tokens -/

/-- The outcomes of two lists of tokens that differ in names and layout alone. Programs have the same
shape, the same identities and the same table, and their texts correspond. Of faults the message and
what was due are the same, and what was found is the token at the same place. Of a repeated name the
texts correspond. -/
inductive OutcomeRenamed (f : String → String) (tokens others : List Token) :
    Except SourceError LinkedProgram → Except SourceError LinkedProgram → Prop where
  | program {program program' : LinkedProgram}
    (htree : program'.toProgram.relabel .forgetSpans = program.toProgram.relabel (.rename f))
    (hbindings : program'.table.bindings = program.table.bindings)
    (huses : program'.table.uses = program.table.uses)
    (hshadowings : program'.table.shadowings.map (·.relabel .forgetSpans) =
      program.table.shadowings.map (·.relabel (.rename f))) :
    OutcomeRenamed f tokens others (.ok program) (.ok program')
  | grammar {diagnostic diagnostic' : Diagnostic} {index : Nat}
    (hmessage : diagnostic'.message = diagnostic.message)
    (hexpected : diagnostic'.expected = diagnostic.expected)
    (hfound : diagnostic.found = tokens[index]?.map Token.describe)
    (hfound' : diagnostic'.found = others[index]?.map Token.describe) :
    OutcomeRenamed f tokens others (.error (.grammar diagnostic)) (.error (.grammar diagnostic'))
  | duplicateDefinition {text : String} {span span' : Span} :
    OutcomeRenamed f tokens others (.error (.duplicateDefinition text span))
      (.error (.duplicateDefinition (f text) span'))

/-- Programs that are the same when the first is renamed and all spans forgotten are both linked, or
both refused for corresponding names. -/
theorem OutcomeRenamed.of_relabel_eq {f : String → String} (hf : Function.Injective f)
    {tokens others : List Token} {program program' : Program}
    (h : program'.relabel .forgetSpans = program.relabel (.rename f)) :
    OutcomeRenamed f tokens others program.analyse.outcome program'.analyse.outcome := by
  have hforget := Program.outcome_analyse_relabel Relabelling.textual_forgetSpans.faithful program'
  have hrename :=
    Program.outcome_analyse_relabel (Relabelling.textual_rename hf).faithful program
  rw [h, hrename] at hforget
  rcases program.outcome_analyse_cases with hok | ⟨_, _, _, _, herror⟩
  · rcases program'.outcome_analyse_cases with hok' | ⟨_, _, _, _, herror'⟩
    · rw [hok, hok'] at hforget
      rw [hok, hok']
      have htables : (program.table).relabel (.rename f) = program'.table.relabel .forgetSpans :=
        congrArg LinkedProgram.table (Except.ok.inj hforget)
      have hkeep := BindingTable.bindings_relabel (Relabelling.textual_rename hf) program.table
      have hkeep' := BindingTable.bindings_relabel Relabelling.textual_forgetSpans program'.table
      rw [htables] at hkeep
      exact .program h (hkeep'.1.symm.trans hkeep.1) (hkeep'.2.symm.trans hkeep.2)
        (congrArg BindingTable.shadowings htables).symm
    · rw [hok, herror'] at hforget
      cases hforget
  · rcases program'.outcome_analyse_cases with hok' | ⟨_, definition, _, _, herror'⟩
    · rw [herror, hok'] at hforget
      cases hforget
    · rw [herror, herror'] at hforget
      rw [herror, herror']
      have htext := (SourceError.duplicateDefinition.inj (Except.error.inj hforget)).1
      rw [show definition.name.text = f _ from htext.symm]
      exact .duplicateDefinition

/-- Faults that are the same when relabelled are told in the same words. -/
theorem GrammarFault.diagnostic_eq_of_relabel_eq {r r' : Relabelling} {fault fault' : GrammarFault}
    (h : fault'.relabel r' = fault.relabel r) :
    fault'.diagnostic.message = fault.diagnostic.message ∧
      fault'.diagnostic.expected = fault.diagnostic.expected := by
  cases fault <;> cases fault' <;> simp_all [GrammarFault.relabel, GrammarFault.diagnostic]

namespace Cursor

/-- **What is said to be found is the token at fault, and nothing where no token is left.** -/
theorem found_of_parse {cursor : Cursor} {diagnostic : Diagnostic}
    (h : cursor.parse = .error (.grammar diagnostic)) :
    diagnostic.found = cursor.tokens[cursor.faultIndex diagnostic]?.map Token.describe := by
  obtain ⟨fault, rfl, taken, middle, left, hpasses, _, hrefuses⟩ := failsFrom_of_parse h
  rw [faultIndex_eq hpasses hrefuses, hpasses.getElem?_tokens]
  generalize cursor.analyse.2 = last at hrefuses
  cases hrefuses <;> rfl

/-- Two refusals in the same words, of as many tokens and after as many, are at the same index. -/
theorem faultIndex_congr {cursor other : Cursor} {diagnostic diagnostic' : Diagnostic}
    (hmessage : diagnostic'.message = diagnostic.message)
    (hexpected : diagnostic'.expected = diagnostic.expected)
    (hlength : other.tokens.length = cursor.tokens.length)
    (hindex : other.analyse.2.index = cursor.analyse.2.index) :
    other.faultIndex diagnostic' = cursor.faultIndex diagnostic := by
  unfold faultIndex
  rw [hmessage, hexpected, hlength, hindex]

/-- Tokens that are equal when relabelled are read in step. -/
theorem readProgram_of_map_eq {r r' : Relabelling} (hr : r.Regular ∧ r.Textual)
    (hr' : r'.Regular ∧ r'.Textual) {tokens others : List Token}
    (h : others.map (·.relabel r') = tokens.map (·.relabel r)) :
    ((ofTokens others).readProgram.1.map (·.relabel r')).mapError (GrammarFault.relabel r') =
        ((ofTokens tokens).readProgram.1.map (·.relabel r)).mapError (GrammarFault.relabel r) ∧
      (ofTokens others).readProgram.2.index = (ofTokens tokens).readProgram.2.index := by
  have hfirst : (ofTokens (tokens.map (·.relabel r))).rest = tokens.map (·.relabel r) := rfl
  have hsecond : (ofTokens (tokens.map (·.relabel r))).rest = others.map (·.relabel r') := h.symm
  obtain ⟨hread, hstop⟩ := readProgram_of_rest hr.1 (hr.2.name _) (hr.2.function _) hfirst
  obtain ⟨hread', hstop'⟩ := readProgram_of_rest hr'.1 (hr'.2.name _) (hr'.2.function _) hsecond
  exact ⟨hread'.symm.trans hread, by omega⟩

/-- **Parsing commutes with renaming and ignores layout.** Where two lists of tokens agree in kinds,
their names correspond by a renaming that keeps different names different, and all other lexemes
are equal, both make a program or neither does. The two programs differ in spans and names alone,
and the names correspond; identities, bindings, lists of uses and shadowings are the same. If they
are refused for their grammar, it is in the same words, but for the name that is found at the place
of the fault; if for a repeated name, the names correspond. Both readings end at the same index. -/
theorem parse_renamed {f : String → String} (hf : Function.Injective f) {tokens others : List Token}
    (h : List.Forall₂ (Token.Renamed f) tokens others) :
    OutcomeRenamed f tokens others (ofTokens tokens).parse (ofTokens others).parse ∧
      (ofTokens others).analyse.2.index = (ofTokens tokens).analyse.2.index := by
  obtain ⟨hread, hstop⟩ := readProgram_of_map_eq
    ⟨Relabelling.regular_rename f, Relabelling.textual_rename hf⟩
    ⟨Relabelling.regular_rename id, Relabelling.textual_forgetSpans⟩ (map_relabel_of_renamed h)
  rw [← analyse_snd, ← analyse_snd] at hstop
  refine ⟨?_, hstop⟩
  cases hresult : (ofTokens tokens).readProgram.1 with
  | error fault =>
    cases hresult' : (ofTokens others).readProgram.1 with
    | ok program' =>
      rw [hresult, hresult'] at hread
      cases hread
    | error fault' =>
      rw [hresult, hresult'] at hread
      obtain ⟨hmessage, hexpected⟩ :=
        GrammarFault.diagnostic_eq_of_relabel_eq (Except.error.inj hread)
      have hparse := parse_of_readProgram_error hresult
      have hparse' := parse_of_readProgram_error hresult'
      have hlength : (ofTokens others).tokens.length = (ofTokens tokens).tokens.length :=
        h.length_eq.symm
      have hindex := faultIndex_congr hmessage hexpected hlength hstop
      have hfound' := found_of_parse hparse'
      rw [hindex] at hfound'
      rw [hparse, hparse']
      exact .grammar hmessage hexpected (found_of_parse hparse) hfound'
  | ok program =>
    cases hresult' : (ofTokens others).readProgram.1 with
    | error fault' =>
      rw [hresult, hresult'] at hread
      cases hread
    | ok program' =>
      rw [hresult, hresult'] at hread
      rw [parse_of_readProgram_ok hresult, parse_of_readProgram_ok hresult']
      exact .of_relabel_eq hf (Except.ok.inj hread)

/-- Where every name gets an `a` before it and the tokens lie elsewhere, `(x λx.x)` makes a program
with the same bindings, and `def x = x def x = y` is refused for `ax`. -/
theorem parse_renamed_of_prefixed_names :
    (∃ program,
      (ofTokens [⟨.openParen, "(", ⟨5, 6⟩⟩, ⟨.name, "ax", ⟨9, 11⟩⟩, ⟨.lambda, "λ", ⟨12, 14⟩⟩,
        ⟨.name, "ax", ⟨14, 16⟩⟩, ⟨.dot, ".", ⟨0, 0⟩⟩, ⟨.name, "ax", ⟨17, 19⟩⟩,
        ⟨.closeParen, ")", ⟨19, 20⟩⟩]).parse = .ok program ∧
      program.table.bindings = [(⟨0⟩, none), (⟨2⟩, some (.function ⟨0⟩))]) ∧
    ∃ span,
      (ofTokens [⟨.keyword, "def", ⟨0, 3⟩⟩, ⟨.name, "ax", ⟨4, 6⟩⟩, ⟨.equals, "=", ⟨7, 8⟩⟩,
        ⟨.name, "ax", ⟨9, 11⟩⟩, ⟨.keyword, "def", ⟨12, 15⟩⟩, ⟨.name, "ax", ⟨16, 18⟩⟩,
        ⟨.equals, "=", ⟨19, 20⟩⟩, ⟨.name, "ay", ⟨21, 23⟩⟩]).parse =
          .error (.duplicateDefinition "ax" span) := by
  have hf : Function.Injective ("a" ++ ·) := fun _ _ => (String.append_right_inj "a").1
  constructor
  · let tokens : List Token := [⟨.openParen, "(", ⟨0, 1⟩⟩, ⟨.name, "x", ⟨1, 2⟩⟩,
      ⟨.lambda, "λ", ⟨3, 5⟩⟩, ⟨.name, "x", ⟨5, 6⟩⟩, ⟨.dot, ".", ⟨6, 7⟩⟩, ⟨.name, "x", ⟨7, 8⟩⟩,
      ⟨.closeParen, ")", ⟨8, 9⟩⟩]
    have htable : (ofTokens tokens).parse.toOption.map (·.table.bindings) =
        some [(⟨0⟩, none), (⟨2⟩, some (.function ⟨0⟩))] := by decide +kernel
    have hrenamed := (@parse_renamed ("a" ++ ·) hf tokens
      [⟨.openParen, "(", ⟨5, 6⟩⟩, ⟨.name, "ax", ⟨9, 11⟩⟩, ⟨.lambda, "λ", ⟨12, 14⟩⟩,
        ⟨.name, "ax", ⟨14, 16⟩⟩, ⟨.dot, ".", ⟨0, 0⟩⟩, ⟨.name, "ax", ⟨17, 19⟩⟩,
        ⟨.closeParen, ")", ⟨19, 20⟩⟩] (by repeat' constructor)).1
    generalize (ofTokens tokens).parse = outcome at htable hrenamed
    generalize (ofTokens _).parse = outcome' at hrenamed ⊢
    cases hrenamed with
    | program _ hbindings => exact ⟨_, rfl, hbindings.trans (Option.some.inj htable)⟩
    | grammar | duplicateDefinition => cases htable
  · let tokens : List Token := [⟨.keyword, "def", ⟨0, 3⟩⟩, ⟨.name, "x", ⟨4, 5⟩⟩,
      ⟨.equals, "=", ⟨6, 7⟩⟩, ⟨.name, "x", ⟨8, 9⟩⟩, ⟨.keyword, "def", ⟨10, 13⟩⟩,
      ⟨.name, "x", ⟨14, 15⟩⟩, ⟨.equals, "=", ⟨16, 17⟩⟩, ⟨.name, "y", ⟨18, 19⟩⟩]
    have hparse : (ofTokens tokens).parse = .error (.duplicateDefinition "x" ⟨14, 15⟩) := by
      decide +kernel
    have hrenamed := (@parse_renamed ("a" ++ ·) hf tokens
      [⟨.keyword, "def", ⟨0, 3⟩⟩, ⟨.name, "ax", ⟨4, 6⟩⟩, ⟨.equals, "=", ⟨7, 8⟩⟩,
        ⟨.name, "ax", ⟨9, 11⟩⟩, ⟨.keyword, "def", ⟨12, 15⟩⟩, ⟨.name, "ax", ⟨16, 18⟩⟩,
        ⟨.equals, "=", ⟨19, 20⟩⟩, ⟨.name, "ay", ⟨21, 23⟩⟩] (by repeat' constructor)).1
    rw [hparse] at hrenamed
    generalize (ofTokens _).parse = outcome' at hrenamed ⊢
    cases hrenamed with
    | duplicateDefinition => exact ⟨_, rfl⟩

end Cursor

end ScopedLambda
