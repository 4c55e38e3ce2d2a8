import Mathlib.Data.Nat.Find
import ScopedLambda.Proofs.Numbering
import ScopedLambda.Proofs.RoundTrip

/-!
# What becomes of a text

Four things can become of a text. It is refused for its characters; or, if it splits into tokens,
for its grammar; or, if they are a sentence, for a name that is defined again; or it makes a program.
Each reason is looked for only where those before it are absent.

* `RepeatedAt`, `FirstRepeatedAt` — the places of a list at which a text occurs again, and the first
  of them.
* `ProgramDerivation.WithinLimits` — no expression of a derivation is higher than it may be.

Principal results: `nodup_iff_not_repeatedAt`, `exists_firstRepeatedAt_iff` — texts are all
different exactly if there is no such place; `Program.analyse_eq_of_firstRepeatedAt` — the walk over
a program is ended by the definition at the first such place; `parse_outcomes` — what becomes of a
text, in all four cases.
-/

set_option autoImplicit false

namespace ScopedLambda

/-! ## Repeated texts -/

/-- At this place of the list is a text that occurs before. -/
def RepeatedAt (texts : List String) (index : Nat) : Prop :=
  index < texts.length ∧ ∃ earlier, earlier < index ∧ texts[earlier]? = texts[index]?

/-- The first place of the list at which a text occurs again. -/
structure FirstRepeatedAt (texts : List String) (index : Nat) : Prop where
  repeated : RepeatedAt texts index
  first : ∀ earlier, earlier < index → ¬ RepeatedAt texts earlier

/-- Texts are all different exactly if none occurs again. -/
theorem nodup_iff_not_repeatedAt {texts : List String} :
    texts.Nodup ↔ ∀ index, ¬ RepeatedAt texts index := by
  rw [List.nodup_iff_getElem?_ne_getElem?]
  constructor
  · rintro h index ⟨hindex, earlier, hearlier, heq⟩
    exact h earlier index hearlier hindex heq
  · intro h earlier index hearlier hindex heq
    exact h index ⟨hindex, earlier, hearlier, heq⟩

/-- There is one first place at most. -/
theorem FirstRepeatedAt.unique {texts : List String} {first second : Nat}
    (h : FirstRepeatedAt texts first) (h' : FirstRepeatedAt texts second) : first = second := by
  have hle : ¬ second < first := fun hlt => h.first second hlt h'.repeated
  have hge : ¬ first < second := fun hlt => h'.first first hlt h.repeated
  omega

/-- Before the first place of a repeated text, all texts are different. -/
theorem FirstRepeatedAt.nodup_take {texts : List String} {index : Nat}
    (h : FirstRepeatedAt texts index) : (texts.take index).Nodup := by
  rw [nodup_iff_not_repeatedAt]
  rintro place ⟨hplace, earlier, hearlier, heq⟩
  rw [List.length_take] at hplace
  have hlt : place < index := by omega
  rw [List.getElem?_take_of_lt hlt, List.getElem?_take_of_lt (hearlier.trans hlt)] at heq
  exact h.first place hlt ⟨by omega, earlier, hearlier, heq⟩

/-- The text at that place occurs before it. -/
theorem FirstRepeatedAt.mem_take {texts : List String} {index : Nat}
    (h : FirstRepeatedAt texts index) {text : String} (htext : texts[index]? = some text) :
    text ∈ texts.take index := by
  obtain ⟨_, earlier, hearlier, heq⟩ := h.repeated
  apply List.mem_of_getElem? (i := earlier)
  rw [List.getElem?_take_of_lt hearlier, heq, htext]

/-- **Some text occurs again exactly if there is a first place at which one does.** -/
theorem exists_firstRepeatedAt_iff {texts : List String} :
    (∃ index, FirstRepeatedAt texts index) ↔ ¬ texts.Nodup := by
  rw [nodup_iff_not_repeatedAt]
  push Not
  constructor
  · rintro ⟨index, h⟩
    exact ⟨index, h.repeated⟩
  · intro h
    classical
    exact ⟨Nat.find h, Nat.find_spec h, fun _ hlt => Nat.find_min h hlt⟩

/-- Where texts are replaced by others and stay different, the same places are repeated. -/
theorem repeatedAt_map_iff {f : String → String} (hf : Function.Injective f) {texts : List String}
    {index : Nat} : RepeatedAt (texts.map f) index ↔ RepeatedAt texts index := by
  simp only [RepeatedAt, List.length_map, List.getElem?_map, (Option.map_injective hf).eq_iff]

theorem firstRepeatedAt_map_iff {f : String → String} (hf : Function.Injective f)
    {texts : List String} {index : Nat} :
    FirstRepeatedAt (texts.map f) index ↔ FirstRepeatedAt texts index := by
  constructor
  · rintro ⟨hrepeated, hfirst⟩
    exact ⟨(repeatedAt_map_iff hf).1 hrepeated,
      fun earlier hearlier => mt (repeatedAt_map_iff hf).2 (hfirst earlier hearlier)⟩
  · rintro ⟨hrepeated, hfirst⟩
    exact ⟨(repeatedAt_map_iff hf).2 hrepeated,
      fun earlier hearlier => mt (repeatedAt_map_iff hf).1 (hfirst earlier hearlier)⟩

/-! ## Programs with a repeated name -/

/-- The definitions before the first that repeats a name, that definition, and those behind it. -/
theorem Program.split_of_firstRepeatedAt {program : Program} {index : Nat}
    {definition : Definition} (hdefinition : program.definitions[index]? = some definition)
    (h : FirstRepeatedAt (program.definitions.map (·.name.text)) index) :
    program.definitions =
        program.definitions.take index ++ definition :: program.definitions.drop (index + 1) ∧
      ((program.definitions.take index).map (·.name.text)).Nodup ∧
      definition.name.text ∈ (program.definitions.take index).map (·.name.text) := by
  obtain ⟨hlt, rfl⟩ := List.getElem?_eq_some_iff.1 hdefinition
  refine ⟨?_, ?_, ?_⟩
  · rw [List.getElem_cons_drop, List.take_append_drop]
  · rw [List.map_take]
    exact h.nodup_take
  · rw [List.map_take]
    apply h.mem_take
    rw [List.getElem?_map, hdefinition, Option.map_some]

/-- **The walk over a program ends at the first definition whose name is defined already.** The uses
in the definitions before it are entered, and nothing else. -/
theorem Program.analyse_eq_of_firstRepeatedAt {program : Program} {index : Nat}
    {definition : Definition} (hdefinition : program.definitions[index]? = some definition)
    (h : FirstRepeatedAt (program.definitions.map (·.name.text)) index) :
    program.analyse =
      ⟨((program.definitions.take index).flatMap (·.expression.sightings {} 2)).map .sighted,
        .error (.duplicateDefinition definition.name.text definition.name.span)⟩ := by
  obtain ⟨hdefinitions, hfresh, hmem⟩ := split_of_firstRepeatedAt hdefinition h
  exact analyse_eq_of_repeated hdefinitions hfresh hmem

/-- Either no name is repeated in a program, or there is a first definition that repeats one. -/
theorem Program.nodup_or_firstRepeatedAt (program : Program) :
    (program.definitions.map (·.name.text)).Nodup ∨
      ∃ index definition, program.definitions[index]? = some definition ∧
        FirstRepeatedAt (program.definitions.map (·.name.text)) index := by
  by_cases hnames : (program.definitions.map (·.name.text)).Nodup
  · exact .inl hnames
  · obtain ⟨index, hindex⟩ := exists_firstRepeatedAt_iff.2 hnames
    have hlt : index < program.definitions.length := by simpa using hindex.repeated.1
    exact .inr ⟨index, _, List.getElem?_eq_getElem hlt, hindex⟩

/-- A program is linked, or refused for the name that is defined again first. -/
theorem Program.outcome_analyse_cases (program : Program) :
    program.analyse.outcome = .ok ⟨program, program.table⟩ ∨
      ∃ index definition, program.definitions[index]? = some definition ∧
        FirstRepeatedAt (program.definitions.map (·.name.text)) index ∧
        program.analyse.outcome =
          .error (.duplicateDefinition definition.name.text definition.name.span) := by
  rcases program.nodup_or_firstRepeatedAt with hnames | ⟨index, definition, hdefinition, hindex⟩
  · exact .inl (outcome_analyse_eq_ok_iff.2 ⟨hnames, rfl⟩)
  · refine .inr ⟨index, definition, hdefinition, hindex, ?_⟩
    rw [analyse_eq_of_firstRepeatedAt hdefinition hindex]

/-! ## Outcomes of tokens -/

/-- A name without its identity. -/
def Name.word (name : Name) : Word := ⟨name.text, name.span⟩

/-- The names of the derived definitions, and where they stand. -/
theorem DefinitionDerivation.map_word_buildAll (derivations : List DefinitionDerivation)
    (names functions : Nat) :
    (buildAll names functions derivations).map (·.name.word) = derivations.map (·.name) := by
  induction derivations generalizing names functions with
  | nil => rfl
  | cons derivation rest ih =>
    rw [buildAll, List.map_cons, List.map_cons, ih]
    rfl

/-- No expression of a derivation is higher than it may be. -/
def ProgramDerivation.WithinLimits (derivation : ProgramDerivation) : Prop :=
  ∀ expression ∈ derivation.expressions, expression.height ≤ maxNesting

namespace Cursor

variable {cursor : Cursor}

/-- What tokens make whose derivation is within the limits. -/
theorem parse_eq_of_derivation {derivation : ProgramDerivation}
    (htokens : derivation.tokens = cursor.rest) (hlimits : derivation.WithinLimits) :
    cursor.parse = derivation.build.analyse.outcome := by
  unfold parse analyse
  rw [readProgram_ok_iff.2 ⟨derivation, htokens, hlimits, rfl, rfl⟩]

/-- **Tokens are refused for their grammar exactly if they have no derivation within the limits.** -/
theorem parse_eq_grammar_iff :
    (∃ diagnostic, cursor.parse = .error (.grammar diagnostic)) ↔
      ¬ ∃ derivation : ProgramDerivation,
        derivation.tokens = cursor.rest ∧ derivation.WithinLimits := by
  constructor
  · rintro ⟨diagnostic, h⟩ ⟨derivation, htokens, hlimits⟩
    rw [parse_eq_of_derivation htokens hlimits] at h
    rcases derivation.build.outcome_analyse_cases with hok | ⟨_, _, _, _, herror⟩
    · rw [hok] at h
      cases h
    · rw [herror] at h
      cases h
  · intro h
    unfold parse analyse
    split
    · exact ⟨_, rfl⟩
    · rename_i program last hread
      obtain ⟨derivation, htokens, hlimits, _, _⟩ := readProgram_ok_iff.1 hread
      exact absurd ⟨derivation, htokens, hlimits⟩ h

/-- **Tokens are refused for a repeated name exactly if they have a derivation within the limits
and this is the name that is repeated first.** -/
theorem parse_eq_duplicateDefinition_iff {text : String} {span : Span} :
    cursor.parse = .error (.duplicateDefinition text span) ↔
      ∃ derivation : ProgramDerivation, derivation.tokens = cursor.rest ∧
        derivation.WithinLimits ∧ ∃ index,
          FirstRepeatedAt (derivation.definitions.map (·.name.lexeme)) index ∧
          derivation.definitions[index]?.map (·.name) = some ⟨text, span⟩ := by
  have hnames (derivation : ProgramDerivation) :
      derivation.build.definitions.map (·.name.text) =
        derivation.definitions.map (·.name.lexeme) :=
    DefinitionDerivation.map_name_buildAll _ _ _
  have hword (derivation : ProgramDerivation) (index : Nat) :
      derivation.build.definitions[index]?.map (·.name.word) =
        derivation.definitions[index]?.map (·.name) := by
    rw [← List.getElem?_map, ← List.getElem?_map]
    exact congrArg (·[index]?) (DefinitionDerivation.map_word_buildAll _ _ _)
  constructor
  · intro h
    have hderivation : ∃ derivation : ProgramDerivation,
        derivation.tokens = cursor.rest ∧ derivation.WithinLimits := by
      by_contra hnone
      obtain ⟨diagnostic, hgrammar⟩ := parse_eq_grammar_iff.2 hnone
      rw [hgrammar] at h
      cases h
    obtain ⟨derivation, htokens, hlimits⟩ := hderivation
    rw [parse_eq_of_derivation htokens hlimits] at h
    rcases derivation.build.outcome_analyse_cases with hok | ⟨index, definition, hget, hfirst, herror⟩
    · rw [hok] at h
      cases h
    · rw [herror] at h
      cases h
      refine ⟨derivation, htokens, hlimits, index, hnames derivation ▸ hfirst, ?_⟩
      rw [← hword, hget]
      rfl
  · rintro ⟨derivation, htokens, hlimits, index, hfirst, hname⟩
    rw [← hword, Option.map_eq_some_iff] at hname
    obtain ⟨definition, hget, hname⟩ := hname
    cases hname
    rw [parse_eq_of_derivation htokens hlimits,
      Program.analyse_eq_of_firstRepeatedAt hget ((hnames derivation).symm ▸ hfirst)]

end Cursor

/-! ## Outcomes of a text -/

/-- A text is refused for a repeated name exactly if its tokens are. -/
theorem parse_eq_duplicateDefinition_iff {source : String} {text : String} {span : Span} :
    parse source = .error (.duplicateDefinition text span) ↔
      ∃ derivation : ProgramDerivation, scan source = .ok derivation.tokens ∧
        derivation.WithinLimits ∧ ∃ index,
          FirstRepeatedAt (derivation.definitions.map (·.name.lexeme)) index ∧
          derivation.definitions[index]?.map (·.name) = some ⟨text, span⟩ := by
  constructor
  · intro h
    obtain ⟨tokens, hscan, hparse⟩ := exists_scan_of_parse_eq h (by simp)
    obtain ⟨derivation, htokens, hrest⟩ := Cursor.parse_eq_duplicateDefinition_iff.1 hparse
    obtain rfl : derivation.tokens = tokens := htokens
    exact ⟨derivation, hscan, hrest⟩
  · rintro ⟨derivation, hscan, hrest⟩
    rw [parse_eq_of_scan hscan]
    exact Cursor.parse_eq_duplicateDefinition_iff.2 ⟨derivation, rfl, hrest⟩

/-- **What becomes of a text.** It is refused for a character exactly if it does not split into
tokens, and then for the character at which that fails, whatever stands before it. It is refused for
its grammar exactly if it splits into tokens that have no derivation in which every expression is at
most 256 high, be there repeated names or not. It is refused for a repeated name exactly if its
tokens have such a derivation and two definitions of it have one name; what is reported is the name
of the first definition that has the name of an earlier one, and where this name stands. In all
other cases it makes a program, whose definitions have different names. -/
theorem parse_outcomes (source : String) :
    (∀ error, parse source = .error (.lexical error) ↔ scan source = .error error) ∧
    ((∃ diagnostic, parse source = .error (.grammar diagnostic)) ↔
      ∃ tokens, scan source = .ok tokens ∧
        ¬ ∃ derivation : ProgramDerivation, derivation.tokens = tokens ∧ derivation.WithinLimits) ∧
    ((∃ text span, parse source = .error (.duplicateDefinition text span)) ↔
      ∃ derivation : ProgramDerivation, scan source = .ok derivation.tokens ∧
        derivation.WithinLimits ∧ ¬ (derivation.definitions.map (·.name.lexeme)).Nodup) ∧
    (∀ text span, parse source = .error (.duplicateDefinition text span) ↔
      ∃ derivation : ProgramDerivation, scan source = .ok derivation.tokens ∧
        derivation.WithinLimits ∧ ∃ index,
          FirstRepeatedAt (derivation.definitions.map (·.name.lexeme)) index ∧
          derivation.definitions[index]?.map (·.name) = some ⟨text, span⟩) ∧
    ((∃ program, parse source = .ok program) ↔
      ∃ derivation : ProgramDerivation, scan source = .ok derivation.tokens ∧
        derivation.WithinLimits ∧ (derivation.definitions.map (·.name.lexeme)).Nodup) ∧
    ∀ program, parse source = .ok program → (program.definitions.map (·.name.text)).Nodup := by
  refine ⟨fun _ => parse_eq_lexical_iff, ⟨?_, ?_⟩, ⟨?_, ?_⟩,
    fun _ _ => parse_eq_duplicateDefinition_iff, ⟨?_, ?_⟩, ?_⟩
  · rintro ⟨diagnostic, h⟩
    obtain ⟨tokens, hscan, hparse⟩ := exists_scan_of_parse_eq h (by simp)
    exact ⟨tokens, hscan, Cursor.parse_eq_grammar_iff.1 ⟨diagnostic, hparse⟩⟩
  · rintro ⟨tokens, hscan, hnone⟩
    rw [parse_eq_of_scan hscan]
    exact Cursor.parse_eq_grammar_iff.2 hnone
  · rintro ⟨text, span, h⟩
    obtain ⟨derivation, hscan, hlimits, index, hfirst, _⟩ := parse_eq_duplicateDefinition_iff.1 h
    exact ⟨derivation, hscan, hlimits, exists_firstRepeatedAt_iff.1 ⟨index, hfirst⟩⟩
  · rintro ⟨derivation, hscan, hlimits, hnames⟩
    obtain ⟨index, hfirst⟩ := exists_firstRepeatedAt_iff.2 hnames
    have hindex : index < derivation.definitions.length := by simpa using hfirst.repeated.1
    exact ⟨_, _, parse_eq_duplicateDefinition_iff.2 ⟨derivation, hscan, hlimits, index, hfirst, by
      rw [List.getElem?_eq_getElem hindex]
      rfl⟩⟩
  · rintro ⟨program, h⟩
    obtain ⟨tokens, hscan, hparse⟩ := exists_scan_of_parse h
    obtain ⟨derivation, htokens, hlimits, hnames, _⟩ := Cursor.parse_eq_ok_iff.1 hparse
    obtain rfl : derivation.tokens = tokens := htokens
    exact ⟨derivation, hscan, hlimits, hnames⟩
  · rintro ⟨derivation, hscan, hlimits, hnames⟩
    rw [parse_eq_of_scan hscan]
    exact ⟨_, Cursor.parse_eq_ok_iff.2 ⟨derivation, rfl, hlimits, hnames, rfl⟩⟩
  · intro program h
    obtain ⟨tokens, _, hparse⟩ := exists_scan_of_parse h
    exact (Cursor.wellLinked_of_parse hparse).nodup_definitions

end ScopedLambda
