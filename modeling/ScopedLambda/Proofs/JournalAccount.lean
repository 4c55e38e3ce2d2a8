import ScopedLambda.Proofs.Aloud
import ScopedLambda.Proofs.JournalLines
import ScopedLambda.Proofs.Outcomes
import ScopedLambda.Proofs.Parts

/-!
# What the journal tells

The journal of a text is described here without a walk and without a stage: by the tokens of the
text, their derivation, and the rule of lexical scoping.

* `Program.SightedAt` — a use as it is met at its place: what it refers to by the rule, and inside
  how many scopes.
* `Program.Recounts` — the sightings of some uses of a program, each once and in order.
* `Analysis.records` — the entries of a journal under their levels.
* `Recounted` — the records and the outcome of a text, one constructor for each thing that can
  become of it.

Principal results: `Program.SightedAt.depth_le` — how many scopes are open at most;
`ProgramDerivation.WithinLimits.recounts` — when sightings recount some uses; `recounted_analyse` —
what the journal of a text tells; `proper_of_mem_journal` — its lines can be read; `journal_exact` —
all of this, whoever may listen.
-/

set_option autoImplicit false

namespace ScopedLambda

/-! ## Sighted uses -/

/-- How many scopes are around a root expression: that of the program, and around the expression of
a definition one more. -/
def rootDepth : Option Nat → Nat
  | none => 1
  | some _ => 2

/-- A use as it is met at a place. It refers to what the rule says, and is met inside the scopes
around the root expression and one more for each step down, which leads into the body of a function
or into a side of an application. -/
structure Program.SightedAt (program : Program) (root : Option Nat) (path : List Branch)
    (sighting : Sighting) : Prop where
  place : program.at? root path = some (.var sighting.name)
  binder : program.Refers root path sighting.name.text sighting.binder
  depth : sighting.depth = rootDepth root + path.length

/-- The sightings of some uses of a program: one of each, in the order of the identities, which is
that of the uses. -/
structure Program.Recounts (program : Program) (uses : List Name) (sightings : List Sighting) :
    Prop where
  names_eq : sightings.map (·.name) = uses
  ascending : uses.Pairwise fun first second => first.id.index < second.id.index
  sighted : ∀ sighting ∈ sightings, ∃ root path, program.SightedAt root path sighting
  depth_le : ∀ sighting ∈ sightings, sighting.depth ≤ 257

namespace Program

variable {program : Program} {sighting : Sighting}

theorem exists_sightedAt_of_root {root : Option Nat} {whole : Expr}
    (hnames : root = none → (program.definitions.map (·.name.text)).Nodup)
    (hroot : program.root? root = some whole)
    (h : sighting ∈ whole.sightings (program.rootScope root) (rootDepth root)) :
    ∃ root path, program.SightedAt root path sighting := by
  obtain ⟨path, hpath, hbinder, hdepth⟩ := Expr.exists_path_of_mem_sightings h
  refine ⟨root, path, at?_eq_some_iff.2 ⟨whole, hroot, hpath⟩, ?_, hdepth⟩
  rw [hbinder]
  exact refers_binder?_scopeAt_of_root hnames hroot path sighting.name.text

/-- What is met in definitions stands at its place, be there repeated names or not. -/
theorem exists_sightedAt_of_definitions {definitions : List Definition}
    (hdefinitions : definitions ⊆ program.definitions)
    (h : sighting ∈ definitions.flatMap (·.expression.sightings {} 2)) :
    ∃ root path, program.SightedAt root path sighting := by
  obtain ⟨definition, hmem, h⟩ := List.mem_flatMap.1 h
  obtain ⟨index, hindex⟩ := List.mem_iff_getElem?.1 (hdefinitions hmem)
  have hroot : program.root? (some index) = some definition.expression := by
    rw [root?, hindex, Option.map_some]
  exact exists_sightedAt_of_root (by simp) hroot h

/-- If all definitions have different names, whatever is met stands at its place. -/
theorem exists_sightedAt (hnames : (program.definitions.map (·.name.text)).Nodup)
    (h : sighting ∈ program.sightings) : ∃ root path, program.SightedAt root path sighting := by
  rcases List.mem_append.1 h with h | h
  · exact exists_sightedAt_of_definitions (List.Subset.refl _) h
  · obtain ⟨whole, hmem, h⟩ := List.mem_flatMap.1 h
    have hroot : program.root? none = some whole := Option.mem_toList.1 hmem
    exact exists_sightedAt_of_root (fun _ => hnames) hroot h

/-- **The limit of nesting is a limit of the open scopes.** -/
theorem SightedAt.depth_le {root : Option Nat} {path : List Branch}
    (h : program.SightedAt root path sighting)
    (hheights : ∀ expression ∈ program.expressions, expression.height ≤ maxNesting) :
    sighting.depth ≤ 257 := by
  obtain ⟨whole, hroot, hpath⟩ := at?_eq_some_iff.1 h.place
  have hheight : whole.height ≤ 256 := hheights _ (mem_expressions_iff.2 ⟨root, hroot⟩)
  have hlength : path.length + 1 ≤ whole.height := Expr.length_add_height_le hpath
  have hdepth : rootDepth root ≤ 2 := by cases root <;> simp [rootDepth]
  rw [h.depth]
  omega

end Program

/-! ## Sighted uses of a derivation -/

theorem DefinitionDerivation.map_height_buildAll (derivations : List DefinitionDerivation)
    (names functions : Nat) :
    (buildAll names functions derivations).map (·.expression.height) =
      derivations.map (·.expression.height) := by
  induction derivations generalizing names functions with
  | nil => rfl
  | cons derivation rest ih =>
    rw [buildAll, List.map_cons, List.map_cons, ih, build, ExprDerivation.height_build]

namespace ProgramDerivation

variable {derivation : ProgramDerivation}

theorem map_height_build (derivation : ProgramDerivation) :
    derivation.build.expressions.map (·.height) = derivation.expressions.map (·.height) := by
  obtain ⟨definitions, expression⟩ := derivation
  have hdefinitions := DefinitionDerivation.map_height_buildAll definitions 0 0
  cases expression with
  | none => simpa [build, Program.expressions, expressions, Function.comp_def] using hdefinitions
  | some expression =>
    simpa [build, Program.expressions, expressions, Function.comp_def,
      ExprDerivation.height_build] using hdefinitions

/-- No expression of the derived program is higher than it may be. -/
theorem WithinLimits.height_le (h : derivation.WithinLimits) :
    ∀ expression ∈ derivation.build.expressions, expression.height ≤ maxNesting := by
  intro expression hmem
  have hheight : expression.height ∈ derivation.expressions.map (·.height) := by
    rw [← map_height_build]
    exact List.mem_map_of_mem hmem
  obtain ⟨derived, hderived, heq⟩ := List.mem_map.1 hheight
  rw [← heq]
  exact h derived hderived

/-- Sightings recount some of the uses, in their order, if they stand at their places. -/
theorem WithinLimits.recounts (h : derivation.WithinLimits) {uses : List Name}
    {sightings : List Sighting} (hnames : sightings.map (·.name) = uses)
    (huses : uses.Sublist derivation.build.uses)
    (hsighted : ∀ sighting ∈ sightings, ∃ root path,
      derivation.build.SightedAt root path sighting) :
    derivation.build.Recounts uses sightings where
  names_eq := hnames
  ascending := derivation.pairwise_uses.sublist huses
  sighted := hsighted
  depth_le sighting hmem := by
    obtain ⟨root, path, hplace⟩ := hsighted sighting hmem
    exact hplace.depth_le h.height_le

/-- **What the walk over a program of different names meets are its uses.** -/
theorem WithinLimits.recounts_sightings (h : derivation.WithinLimits)
    (hnames : (derivation.build.definitions.map (·.name.text)).Nodup) :
    derivation.build.Recounts derivation.build.uses derivation.build.sightings :=
  h.recounts derivation.build.map_name_sightings (.refl _)
    fun _ hmem => Program.exists_sightedAt hnames hmem

/-- **What the walk over the first definitions meets are the uses in them.** -/
theorem WithinLimits.recounts_take (h : derivation.WithinLimits) (count : Nat) :
    derivation.build.Recounts
      ((derivation.build.definitions.take count).flatMap (·.expression.uses))
      ((derivation.build.definitions.take count).flatMap (·.expression.sightings {} 2)) := by
  refine h.recounts ?_ ?_ ?_
  · simp [List.map_flatMap, Expr.map_name_sightings]
  · have huses : derivation.build.uses =
        (derivation.build.definitions.take count).flatMap (·.expression.uses) ++
          ((derivation.build.definitions.drop count).flatMap (·.expression.uses) ++
            derivation.build.expression.toList.flatMap (·.uses)) := by
      rw [Program.uses, Program.expressions, List.flatMap_append, List.flatMap_map,
        ← List.append_assoc, ← List.flatMap_append, List.take_append_drop]
    rw [huses]
    exact List.sublist_append_left _ _
  · intro sighting hmem
    exact Program.exists_sightedAt_of_definitions (List.take_subset _ _) hmem

end ProgramDerivation

/-! ## Journals -/

/-- The entries of a journal under their levels. -/
def Analysis.records (analysis : Analysis) : List (Level × Entry) :=
  analysis.journal.map fun entry => (entry.level, entry)

/-- What the journal of a text tells, and what becomes of the text. -/
inductive Recounted (source : String) :
    List (Level × Entry) → Except SourceError LinkedProgram → Prop where
  | unscannable {error : LexicalError} (hscan : scan source = .error error) :
    Recounted source [] (.error (.lexical error))
  | ungrammatical {tokens : List Token} {diagnostic : Diagnostic} (hscan : scan source = .ok tokens)
    (hnone : ¬ ∃ derivation : ProgramDerivation,
      derivation.tokens = tokens ∧ derivation.WithinLimits) :
    Recounted source [(.debug, .scanned tokens.length)] (.error (.grammar diagnostic))
  | repeated {derivation : ProgramDerivation} {index : Nat} {definition : Definition}
    {sightings : List Sighting} (hscan : scan source = .ok derivation.tokens)
    (hlimits : derivation.WithinLimits)
    (hdefinition : derivation.build.definitions[index]? = some definition)
    (hfirst : FirstRepeatedAt (derivation.build.definitions.map (·.name.text)) index)
    (hsightings : derivation.build.Recounts
      ((derivation.build.definitions.take index).flatMap (·.expression.uses)) sightings) :
    Recounted source
      ((.debug, .scanned derivation.tokens.length) ::
        sightings.map fun sighting => (.trace, .sighted sighting))
      (.error (.duplicateDefinition definition.name.text definition.name.span))
  | linked {derivation : ProgramDerivation} {table : BindingTable} {sightings : List Sighting}
    {warnings : List Entry} (hscan : scan source = .ok derivation.tokens)
    (hlimits : derivation.WithinLimits)
    (hnames : (derivation.build.definitions.map (·.name.text)).Nodup)
    (hsightings : derivation.build.Recounts derivation.build.uses sightings)
    (hbinders : ∀ sighting ∈ sightings,
      table.bindings.lookup sighting.name.id = some sighting.binder)
    (hwarnings : warnings = if table.shadowings = [] then [] else
      .shadowingsFound table.shadowings.length :: table.shadowings.map .shadowed) :
    Recounted source
      ((.debug, .scanned derivation.tokens.length) ::
        ((sightings.map fun sighting => (.trace, .sighted sighting)) ++
          (warnings.map fun warning => (.warn, warning)) ++
          [(.debug, .linked sightings.length derivation.build.definitions.length),
            (.debug, .completed derivation.build.definitions.length)]))
      (.ok ⟨derivation.build, table⟩)

theorem shadowingEntries_eq (shadowings : List Shadowing) :
    shadowingEntries shadowings = if shadowings = [] then [] else
      .shadowingsFound shadowings.length :: shadowings.map .shadowed := by
  cases shadowings <;> rfl

/-- What is said of shadowings is a warning. -/
theorem map_level_shadowingEntries (shadowings : List Shadowing) :
    (shadowingEntries shadowings).map (fun entry => (entry.level, entry)) =
      (shadowingEntries shadowings).map fun warning => (.warn, warning) := by
  refine List.map_congr_left fun entry hmem => ?_
  cases shadowings with
  | nil => cases hmem
  | cons shadowing rest =>
    rcases List.mem_cons.1 hmem with rfl | hmem
    · rfl
    · obtain ⟨other, _, rfl⟩ := List.mem_map.1 hmem
      rfl

/-- A text that does not split into tokens has no entries. -/
theorem analyse_eq_of_scan_error {source : String} {error : LexicalError}
    (hscan : scan source = .error error) : analyse source = ⟨[], .error (.lexical error)⟩ := by
  unfold analyse
  rw [hscan]

/-- A text of accepted syntax is analysed as its program is, once its tokens are counted. -/
theorem analyse_eq_of_derivation {source : String} {derivation : ProgramDerivation}
    (hscan : scan source = .ok derivation.tokens) (hlimits : derivation.WithinLimits) :
    analyse source =
      ⟨.scanned derivation.tokens.length :: derivation.build.analyse.journal,
        derivation.build.analyse.outcome⟩ := by
  have htokens : derivation.tokens = (Cursor.ofTokens derivation.tokens).rest := rfl
  have hread := Cursor.readProgram_ok_iff.2 ⟨derivation, htokens, hlimits, rfl, rfl⟩
  simp only [analyse, hscan, Cursor.analyse, hread]

/-- A text of refused syntax has an entry for its tokens and no other. -/
theorem exists_analyse_eq_of_not_derivation {source : String} {tokens : List Token}
    (hscan : scan source = .ok tokens)
    (hnone : ¬ ∃ derivation : ProgramDerivation,
      derivation.tokens = tokens ∧ derivation.WithinLimits) :
    ∃ diagnostic, analyse source = ⟨[.scanned tokens.length], .error (.grammar diagnostic)⟩ := by
  unfold analyse
  rw [hscan]
  cases hread : (Cursor.ofTokens tokens).readProgram with
  | mk result last =>
    cases result with
    | error fault => exact ⟨fault.diagnostic, by simp only [Cursor.analyse, hread]⟩
    | ok program =>
      obtain ⟨derivation, htokens, hlimits, _, _⟩ := Cursor.readProgram_ok_iff.1 hread
      exact absurd ⟨derivation, htokens, hlimits⟩ hnone

/-- A text of accepted syntax is recounted, be there repeated names or not. -/
theorem recounted_of_derivation {source : String} {derivation : ProgramDerivation}
    (hscan : scan source = .ok derivation.tokens) (hlimits : derivation.WithinLimits) :
    Recounted source (analyse source).records (parse source) := by
  rw [parse, analyse_eq_of_derivation hscan hlimits, Analysis.records]
  rcases derivation.build.nodup_or_firstRepeatedAt with
    hnames | ⟨index, definition, hdefinition, hfirst⟩
  · rw [Program.analyse_eq_of_nodup hnames]
    simp only [List.map_cons, List.map_append, List.map_map, map_level_shadowingEntries]
    refine .linked hscan hlimits hnames (hlimits.recounts_sightings hnames) ?_
      (shadowingEntries_eq _)
    intro sighting hmem
    exact Program.lookup_bindings_table derivation.nodup_uses hmem
  · rw [Program.analyse_eq_of_firstRepeatedAt hdefinition hfirst]
    simp only [List.map_cons, List.map_map]
    exact .repeated hscan hlimits hdefinition hfirst (hlimits.recounts_take index)

/-- **The journal of a text tells what was done with it.** -/
theorem recounted_analyse (source : String) :
    Recounted source (analyse source).records (parse source) := by
  cases hscan : scan source with
  | error error =>
    rw [parse, analyse_eq_of_scan_error hscan]
    exact .unscannable hscan
  | ok tokens =>
    by_cases h : ∃ derivation : ProgramDerivation,
        derivation.tokens = tokens ∧ derivation.WithinLimits
    · obtain ⟨derivation, rfl, hlimits⟩ := h
      exact recounted_of_derivation hscan hlimits
    · obtain ⟨diagnostic, hanalyse⟩ := exists_analyse_eq_of_not_derivation hscan h
      rw [parse, hanalyse]
      exact .ungrammatical hscan h

/-- The second definition of `f` ends the walk; the shadowing in the first one is not entered. -/
example : (analyse "def f = λx.λx.x def f = y").journal =
    [.scanned 14, .sighted ⟨⟨⟨3⟩, "x", ⟨16, 17⟩⟩, some (.function ⟨0⟩), 4⟩] := by
  decide +kernel

/-! ## Lines -/

/-- The names of a program whose tokens were scanned are words. -/
theorem ProgramDerivation.isRun_of_mem_names {derivation : ProgramDerivation} {source : String}
    (hscan : scan source = .ok derivation.tokens) {name : Name}
    (h : name ∈ derivation.build.names) : IsRun name.text.toList := by
  have hmem : name.token ∈ nameTokens derivation.tokens := by
    rw [← map_token_names_build]
    exact List.mem_map_of_mem h
  exact (entry_of_scan hscan (List.mem_filter.1 hmem).1).1 rfl

namespace Program

variable {program : Program}

theorem SightedAt.mem_names {root : Option Nat} {path : List Branch} {sighting : Sighting}
    (h : program.SightedAt root path sighting) : sighting.name ∈ program.names :=
  program.uses_sublist_names.subset (mem_uses_iff.2 ⟨root, path, h.place⟩)

/-- The text of a shadowing is that of a name. -/
theorem exists_mem_names_of_mem_shadowings {shadowing : Shadowing}
    (h : shadowing ∈ program.shadowings) : ∃ name ∈ program.names, name.text = shadowing.text := by
  obtain ⟨root, path, inner, outer, ⟨whole, hroot, hpath, _⟩, rfl⟩ := mem_shadowings_iff.1 h
  have hfunction : inner ∈ program.functions :=
    mem_functions_iff.2 ⟨root, path, at?_eq_some_iff.2 ⟨whole, hroot, hpath⟩⟩
  refine ⟨inner.parameter, program.names_perm.mem_iff.2 ?_, rfl⟩
  exact List.mem_append_left _ (List.mem_append_right _ (List.mem_map_of_mem hfunction))

end Program

theorem ProgramDerivation.proper_of_mem_shadowings {derivation : ProgramDerivation}
    {source : String} (hscan : scan source = .ok derivation.tokens) {entry : Entry}
    (h : entry ∈ shadowingEntries derivation.build.shadowings) : entry.Proper := by
  rw [shadowingEntries_eq] at h
  split at h
  · cases h
  · rcases List.mem_cons.1 h with rfl | h
    · trivial
    · obtain ⟨shadowing, hmem, rfl⟩ := List.mem_map.1 h
      obtain ⟨name, hname, htext⟩ := Program.exists_mem_names_of_mem_shadowings hmem
      rw [Entry.Proper, ← htext]
      exact isRun_of_mem_names hscan hname

/-- The texts in the journal of a program are words. -/
theorem ProgramDerivation.proper_of_mem_journal_build {derivation : ProgramDerivation}
    {source : String} (hscan : scan source = .ok derivation.tokens) {entry : Entry}
    (h : entry ∈ derivation.build.analyse.journal) : entry.Proper := by
  rcases derivation.build.nodup_or_firstRepeatedAt with
    hnames | ⟨index, definition, hdefinition, hfirst⟩
  · rw [Program.analyse_eq_of_nodup hnames] at h
    rcases List.mem_append.1 h with h | h
    · rcases List.mem_append.1 h with h | h
      · obtain ⟨sighting, hmem, rfl⟩ := List.mem_map.1 h
        obtain ⟨root, path, hplace⟩ := Program.exists_sightedAt hnames hmem
        exact isRun_of_mem_names hscan hplace.mem_names
      · exact proper_of_mem_shadowings hscan h
    · rcases List.mem_pair.1 h with rfl | rfl <;> trivial
  · rw [Program.analyse_eq_of_firstRepeatedAt hdefinition hfirst] at h
    obtain ⟨sighting, hmem, rfl⟩ := List.mem_map.1 h
    obtain ⟨root, path, hplace⟩ :=
      Program.exists_sightedAt_of_definitions (List.take_subset _ _) hmem
    exact isRun_of_mem_names hscan hplace.mem_names

/-- **The texts in a journal are words.** -/
theorem proper_of_mem_journal {source : String} {entry : Entry}
    (h : entry ∈ (analyse source).journal) : entry.Proper := by
  cases hscan : scan source with
  | error error =>
    rw [analyse_eq_of_scan_error hscan] at h
    cases h
  | ok tokens =>
    by_cases hderives : ∃ derivation : ProgramDerivation,
        derivation.tokens = tokens ∧ derivation.WithinLimits
    · obtain ⟨derivation, rfl, hlimits⟩ := hderives
      rw [analyse_eq_of_derivation hscan hlimits] at h
      rcases List.mem_cons.1 h with rfl | h
      · trivial
      · exact derivation.proper_of_mem_journal_build hscan h
    · obtain ⟨diagnostic, hanalyse⟩ := exists_analyse_eq_of_not_derivation hscan hderives
      rw [hanalyse] at h
      obtain rfl := List.mem_singleton.1 h
      trivial

/-- **The journal is an exact account of a run and has no part in it.** It is empty if the text does
not split into tokens. Else it begins with their number, and that is all if the syntax is refused.
Then come the uses that are linked, in ascending order of their identities, each with what it
refers to in the end and inside how many scopes it is met, which are never more than 257. If a
repeated name ends the walk, these are the uses in the definitions before it, and nothing follows.
Else these are all uses, and there follow the shadowings behind their number, if there are any, and
then the numbers of uses and of definitions. A line of a journal says all that, but for identities:
lines are the same exactly if they show the same. Whoever listens while the work is done is told
the journal, entry by entry, and what becomes of the text is the same; a listener who keeps the
entries up to a level has that part of the journal in the end. -/
theorem journal_exact (source : String) :
    Recounted source (analyse source).records (parse source) ∧
    (∀ other : String, ∀ entry ∈ (analyse source).journal, ∀ entry' ∈ (analyse other).journal,
      entry.render = entry'.render ↔ entry.shown = entry'.shown) ∧
    (∀ (m : Type → Type) [Monad m] [LawfulMonad m] (tell : Entry → m Unit),
      analyseAloud tell source = do
        (analyse source).journal.forM tell
        return parse source) ∧
    ∀ threshold : Option Level,
      (analyseAloud (keepUpTo threshold) source).run [] =
        (parse source, upTo threshold (analyse source).journal) := by
  refine ⟨recounted_analyse source, ?_, ?_, ?_⟩
  · intro other entry hentry entry' hentry'
    exact Entry.render_eq_iff (proper_of_mem_journal hentry) (proper_of_mem_journal hentry')
  · intro m _ _ tell
    exact analyseAloud_eq tell source
  · intro threshold
    exact run_analyseAloud_keepUpTo threshold source

/-- Of `λx.λx.(x y)` two uses, one shadowing and four numbers are told. -/
theorem journal_exact_of_shadowed_parameter :
    let bound : Entry := .sighted ⟨⟨⟨2⟩, "x", ⟨9, 10⟩⟩, some (.function ⟨0⟩), 4⟩
    let free : Entry := .sighted ⟨⟨⟨3⟩, "y", ⟨11, 12⟩⟩, none, 4⟩
    let shadowing : Entry := .shadowed ⟨"x", ⟨1⟩, ⟨0⟩, ⟨6, 7⟩⟩
    Recounted "λx.λx.(x y)"
      [(.debug, .scanned 10), (.trace, bound), (.trace, free), (.warn, .shadowingsFound 1),
        (.warn, shadowing), (.debug, .linked 2 0), (.debug, .completed 0)]
      (parse "λx.λx.(x y)") ∧
    bound.render ≠ free.render ∧
    (analyseAloud (keepUpTo (some .warn)) "λx.λx.(x y)").run [] =
      (parse "λx.λx.(x y)", [.shadowingsFound 1, shadowing]) := by
  intro bound free shadowing
  have hjournal : (analyse "λx.λx.(x y)").journal =
      [.scanned 10, bound, free, .shadowingsFound 1, shadowing, .linked 2 0, .completed 0] := by
    decide +kernel
  obtain ⟨hrecounted, hlines, _, hkept⟩ := journal_exact "λx.λx.(x y)"
  refine ⟨?_, ?_, ?_⟩
  · rw [Analysis.records, hjournal] at hrecounted
    exact hrecounted
  · have hline := hlines "λx.λx.(x y)" bound (by simp [hjournal]) free (by simp [hjournal])
    rw [Ne, hline]
    decide
  · rw [hkept, hjournal]
    rfl

end ScopedLambda
