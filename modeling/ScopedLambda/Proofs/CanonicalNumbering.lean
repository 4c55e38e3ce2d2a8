import ScopedLambda.Node
import ScopedLambda.Proofs.Relabelling
import ScopedLambda.Proofs.ShadowedParameters
import ScopedLambda.Proofs.UseLists

/-!
# The numbering follows from the tree

Names are numbered in the order in which a visitor meets them, functions in the order in which they
end. Both orders can be read off the finished tree, so the identities add nothing to its shape and
its texts: programs that agree in these carry the same identities at the same places, and with them
the same tables.

* `Node.name?` — the name that is met, if a name is met.
* `Relabelling.textsOnly` — every span and every identity is replaced by one and the same.

Principal results: `Program.names_visit` — a visitor that goes inside everything meets the names
from left to right; `Program.relabel_forgetSpans_of_ids` — a tree is determined by its shape, its
texts and the identities in the two orders; `Cursor.numbered_canonically` — the numbering of a
program that was read.
-/

set_option autoImplicit false

namespace ScopedLambda

/-! ## The names that a visitor meets -/

/-- The name that is met, if a name is met. -/
def Node.name? : Node → Option Name
  | .name met => some met
  | _ => none

theorem Expr.names_visit (expr : Expr) :
    (expr.visit fun _ => true).filterMap Node.name? = expr.names := by
  induction expr with
  | var name => rfl
  | lam id parameter body span ih => simp [visit, names, Node.name?, List.filterMap_cons, ih]
  | app callee argument span ihc iha =>
    simp [visit, names, Node.name?, List.filterMap_cons, ihc, iha]

/-- **A visitor that goes inside everything meets the names from left to right.** -/
theorem Program.names_visit (program : Program) :
    (program.visit fun _ => true).filterMap Node.name? = program.names := by
  have hdefinition (definition : Definition) :
      (definition.visit fun _ => true).filterMap Node.name? =
        definition.name :: definition.expression.names := by
    simp [Definition.visit, Node.name?, List.filterMap_cons, Expr.names_visit]
  simp [visit, names, Node.name?, List.filterMap_cons, List.filterMap_flatMap, hdefinition,
    Expr.names_visit]

/-! ## What is left without identities -/

/-- Keeps texts; puts one and the same span and identity everywhere. -/
def Relabelling.textsOnly : Relabelling := ⟨id, fun _ => ⟨0, 0⟩, fun _ => ⟨0⟩, fun _ => ⟨0⟩⟩

namespace Expr

theorem names_relabel (r : Relabelling) (expr : Expr) :
    (expr.relabel r).names = expr.names.map (·.relabel r) := by
  induction expr with
  | var name => rfl
  | lam id parameter body span ih => simp [relabel, names, ih]
  | app callee argument span ihc iha => simp [relabel, names, ihc, iha]

theorem length_functionsInsideOut_relabel (r : Relabelling) (expr : Expr) :
    (expr.relabel r).functionsInsideOut.length = expr.functionsInsideOut.length := by
  induction expr with
  | var name => rfl
  | lam id parameter body span ih => simp [relabel, functionsInsideOut, ih]
  | app callee argument span ihc iha => simp [relabel, functionsInsideOut, ihc, iha]

/-- Expressions of one shape have equally many names. -/
theorem length_names_of_relabel_eq {r : Relabelling} {first second : Expr}
    (h : first.relabel r = second.relabel r) : first.names.length = second.names.length := by
  have hlength := congrArg (·.names.length) h
  simpa [names_relabel] using hlength

/-- Expressions of one shape have equally many functions. -/
theorem length_functionsInsideOut_of_relabel_eq {r : Relabelling} {first second : Expr}
    (h : first.relabel r = second.relabel r) :
    first.functionsInsideOut.length = second.functionsInsideOut.length := by
  have hlength := congrArg (·.functionsInsideOut.length) h
  simpa [length_functionsInsideOut_relabel] using hlength

end Expr

theorem Name.relabel_forgetSpans_of_id {first second : Name}
    (htext : first.relabel .textsOnly = second.relabel .textsOnly) (hid : first.id = second.id) :
    first.relabel .forgetSpans = second.relabel .forgetSpans := by
  obtain ⟨_, hsame, _⟩ := Name.mk.inj htext
  have hsame : first.text = second.text := hsame
  simp [Name.relabel, Relabelling.forgetSpans, hsame, hid]

/-- **An expression is determined by its shape, its texts and the identities in the two orders.** -/
theorem Expr.relabel_forgetSpans_of_ids {first second : Expr}
    (htexts : first.relabel .textsOnly = second.relabel .textsOnly)
    (hnames : first.names.map (·.id) = second.names.map (·.id))
    (hfunctions : first.functionsInsideOut.map (·.id) = second.functionsInsideOut.map (·.id)) :
    first.relabel .forgetSpans = second.relabel .forgetSpans := by
  induction first generalizing second with
  | var name =>
    cases second with
    | var name' =>
      rw [relabel, relabel, Name.relabel_forgetSpans_of_id (Expr.var.inj htexts)
        (List.cons.inj hnames).1]
    | lam | app => cases htexts
  | lam id parameter body span ih =>
    cases second with
    | lam id' parameter' body' span' =>
      obtain ⟨_, hparameter, hbody, _⟩ := Expr.lam.inj htexts
      obtain ⟨hid, hnames⟩ := List.cons.inj hnames
      simp only [functionsInsideOut, List.map_append, List.map_cons, List.map_nil] at hfunctions
      obtain ⟨hinside, hself⟩ := List.append_inj' hfunctions rfl
      have hself : id = id' := (List.cons.inj hself).1
      rw [relabel, relabel, ih hbody hnames hinside, hself,
        Name.relabel_forgetSpans_of_id hparameter hid]
      rfl
    | var | app => cases htexts
  | app callee argument span ihc iha =>
    cases second with
    | app callee' argument' span' =>
      obtain ⟨hcallee, hargument, _⟩ := Expr.app.inj htexts
      simp only [names, List.map_append] at hnames
      simp only [functionsInsideOut, List.map_append] at hfunctions
      -- A side has as many names and functions as its counterpart, so the lists split there.
      obtain ⟨hnames, hnames'⟩ := List.append_inj hnames
        (by simpa using length_names_of_relabel_eq hcallee)
      obtain ⟨hfunctions, hfunctions'⟩ := List.append_inj hfunctions
        (by simpa using length_functionsInsideOut_of_relabel_eq hcallee)
      rw [relabel, relabel, ihc hcallee hnames hfunctions, iha hargument hnames' hfunctions']
      rfl
    | var | lam => cases htexts

/-! ## Programs -/

/-- All names of some definitions, from left to right. -/
def definitionNames (definitions : List Definition) : List Name :=
  definitions.flatMap fun definition => definition.name :: definition.expression.names

/-- The functions in some definitions, each after those inside it. -/
def definitionFunctions (definitions : List Definition) : List FunctionNode :=
  definitions.flatMap (·.expression.functionsInsideOut)

theorem definitionNames_relabel (r : Relabelling) (definitions : List Definition) :
    definitionNames (definitions.map (·.relabel r)) =
      (definitionNames definitions).map (·.relabel r) := by
  simp [definitionNames, List.flatMap_map, List.map_flatMap, Definition.relabel,
    Expr.names_relabel]

theorem length_definitionFunctions_relabel (r : Relabelling) (definitions : List Definition) :
    (definitionFunctions (definitions.map (·.relabel r))).length =
      (definitionFunctions definitions).length := by
  simp [definitionFunctions, List.length_flatMap, Definition.relabel,
    Expr.length_functionsInsideOut_relabel, Function.comp_def]

/-- Definitions are determined like expressions, one after the other. -/
theorem map_relabel_forgetSpans_of_ids {first second : List Definition}
    (htexts : first.map (·.relabel .textsOnly) = second.map (·.relabel .textsOnly))
    (hnames : (definitionNames first).map (·.id) = (definitionNames second).map (·.id))
    (hfunctions : (definitionFunctions first).map (·.id) =
      (definitionFunctions second).map (·.id)) :
    first.map (·.relabel .forgetSpans) = second.map (·.relabel .forgetSpans) := by
  induction first generalizing second with
  | nil =>
    obtain rfl : second = [] := by simpa using htexts
    rfl
  | cons definition rest ih =>
    cases second with
    | nil => simp at htexts
    | cons definition' rest' =>
      obtain ⟨hdefinition, hrest⟩ := List.cons.inj htexts
      obtain ⟨hname, hexpression, _⟩ := Definition.mk.inj hdefinition
      simp only [definitionNames, List.flatMap_cons, List.cons_append, List.map_cons,
        List.map_append] at hnames
      simp only [definitionFunctions, List.flatMap_cons, List.map_append] at hfunctions
      obtain ⟨hid, hnames⟩ := List.cons.inj hnames
      obtain ⟨hnames, hnames'⟩ := List.append_inj hnames
        (by simpa using Expr.length_names_of_relabel_eq hexpression)
      obtain ⟨hfunctions, hfunctions'⟩ := List.append_inj hfunctions
        (by simpa using Expr.length_functionsInsideOut_of_relabel_eq hexpression)
      have hself : definition.relabel .forgetSpans = definition'.relabel .forgetSpans := by
        rw [Definition.relabel, Definition.relabel, Name.relabel_forgetSpans_of_id hname hid,
          Expr.relabel_forgetSpans_of_ids hexpression hnames hfunctions]
        rfl
      rw [List.map_cons, List.map_cons, hself, ih hrest hnames' hfunctions']

namespace Program

theorem names_eq (program : Program) :
    program.names =
      definitionNames program.definitions ++ program.expression.toList.flatMap (·.names) := rfl

theorem functionsInsideOut_eq (program : Program) :
    program.functionsInsideOut =
      definitionFunctions program.definitions ++
        program.expression.toList.flatMap (·.functionsInsideOut) := by
  rw [functionsInsideOut, expressions, List.flatMap_append, List.flatMap_map]
  rfl

theorem names_relabel (r : Relabelling) (program : Program) :
    (program.relabel r).names = program.names.map (·.relabel r) := by
  rw [names_eq, names_eq, List.map_append, relabel, definitionNames_relabel]
  cases program.expression <;> simp [Expr.names_relabel]

theorem length_functionsInsideOut_relabel (r : Relabelling) (program : Program) :
    (program.relabel r).functionsInsideOut.length = program.functionsInsideOut.length := by
  rw [functionsInsideOut_eq, functionsInsideOut_eq, List.length_append, List.length_append,
    relabel, length_definitionFunctions_relabel]
  cases program.expression <;> simp [Expr.length_functionsInsideOut_relabel]

/-- **A program is determined by its shape, its texts and the identities in the two orders.** -/
theorem relabel_forgetSpans_of_ids {first second : Program}
    (htexts : first.relabel .textsOnly = second.relabel .textsOnly)
    (hnames : first.names.map (·.id) = second.names.map (·.id))
    (hfunctions : first.functionsInsideOut.map (·.id) = second.functionsInsideOut.map (·.id)) :
    first.relabel .forgetSpans = second.relabel .forgetSpans := by
  obtain ⟨hdefinitions, hexpression⟩ := Program.mk.inj htexts
  rw [names_eq, names_eq, List.map_append, List.map_append] at hnames
  rw [functionsInsideOut_eq, functionsInsideOut_eq, List.map_append, List.map_append] at hfunctions
  obtain ⟨hnames, hnames'⟩ := List.append_inj hnames (by
    have hlength := congrArg (List.length ∘ definitionNames) hdefinitions
    simpa [definitionNames_relabel] using hlength)
  obtain ⟨hfunctions, hfunctions'⟩ := List.append_inj hfunctions (by
    have hlength := congrArg (List.length ∘ definitionFunctions) hdefinitions
    simpa [length_definitionFunctions_relabel] using hlength)
  rw [relabel, relabel, map_relabel_forgetSpans_of_ids hdefinitions hnames hfunctions]
  congr 1
  cases hfirst : first.expression with
  | none =>
    rw [hfirst] at hexpression
    rw [Option.map_eq_none_iff.1 hexpression.symm]
  | some expression =>
    rw [hfirst] at hexpression hnames' hfunctions'
    obtain ⟨expression', hsecond, hsame⟩ := Option.map_eq_some_iff.1 hexpression.symm
    rw [hsecond] at hnames' hfunctions' ⊢
    simp only [Option.toList_some, List.flatMap_cons, List.flatMap_nil, List.append_nil]
      at hnames' hfunctions'
    rw [Option.map_some, Option.map_some,
      Expr.relabel_forgetSpans_of_ids hsame.symm hnames' hfunctions']

end Program

/-! ## Programs that were read -/

/-- The functions of a linked program have the identities 0, 1, 2 and so on, from the inside out. -/
theorem Cursor.functionsInsideOut_of_parse {cursor : Cursor} {program : LinkedProgram}
    (h : cursor.parse = .ok program) :
    program.functionsInsideOut.map (·.id.index) =
      List.range program.functionsInsideOut.length := by
  obtain ⟨derivation, _, _, _, rfl⟩ := Cursor.parse_eq_ok_iff.1 h
  have hlength := congrArg List.length derivation.functionsInsideOut_build
  rw [List.length_map, List.length_range] at hlength
  rw [derivation.functionsInsideOut_build, hlength]

/-- Equally many consecutive numbers are the same identities. -/
theorem map_id_eq_of_range {α β : Type} {first second : List α} {key : α → β} {index : β → Nat}
    (hindex : Function.Injective index) (hlength : first.length = second.length)
    (hfirst : (first.map fun entry => index (key entry)) = List.range first.length)
    (hsecond : (second.map fun entry => index (key entry)) = List.range second.length) :
    first.map key = second.map key := by
  apply hindex.list_map
  rw [List.map_map, List.map_map]
  exact hfirst.trans (hlength ▸ hsecond.symm)

/-- A function that was read has a higher number than those in its body. -/
theorem Cursor.lt_of_mem_body {cursor : Cursor} {program : LinkedProgram}
    (h : cursor.parse = .ok program) {outer inner : FunctionNode}
    (houter : outer ∈ program.functions) (hinner : inner ∈ outer.body.functions) :
    inner.id.index < outer.id.index := by
  obtain ⟨root, path, hplace⟩ := Program.mem_functions_iff.1 houter
  obtain ⟨whole, hroot, hpath⟩ := Program.at?_eq_some_iff.1 hplace
  obtain ⟨rest, hrest⟩ := Expr.mem_functions_iff.1 hinner
  have hencloses : whole.Encloses (path ++ [.body] ++ rest) path outer :=
    ⟨hpath, List.prefix_append _ _⟩
  refine Cursor.lt_of_encloses h hroot hencloses ?_
  rw [List.append_assoc, Expr.descend?_append, hpath]
  exact hrest

/-- **Programs of one shape and the same texts that were read are the same up to their spans.** -/
theorem Cursor.relabel_forgetSpans_of_textsOnly {cursor cursor' : Cursor}
    {program other : LinkedProgram} (h : cursor.parse = .ok program)
    (h' : cursor'.parse = .ok other)
    (htexts : program.toProgram.relabel .textsOnly = other.toProgram.relabel .textsOnly) :
    program.relabel .forgetSpans = other.relabel .forgetSpans := by
  have hnames : program.names.length = other.names.length := by
    have hlength := congrArg (·.names.length) htexts
    simpa [Program.names_relabel] using hlength
  have hfunctions : program.functionsInsideOut.length = other.functionsInsideOut.length := by
    have hlength := congrArg (·.functionsInsideOut.length) htexts
    simpa [Program.length_functionsInsideOut_relabel] using hlength
  have hnumber : Function.Injective NameId.index := fun _ _ heq => congrArg NameId.mk heq
  have hnumber' : Function.Injective FunctionId.index := fun _ _ heq => congrArg FunctionId.mk heq
  have htree : program.toProgram.relabel .forgetSpans = other.toProgram.relabel .forgetSpans :=
    Program.relabel_forgetSpans_of_ids htexts
      (map_id_eq_of_range hnumber hnames (Cursor.names_of_parse h) (Cursor.names_of_parse h'))
      (map_id_eq_of_range hnumber' hfunctions (Cursor.functionsInsideOut_of_parse h)
        (Cursor.functionsInsideOut_of_parse h'))
  have hfaithful := Relabelling.textual_forgetSpans.faithful
  rw [LinkedProgram.relabel, LinkedProgram.relabel, (Cursor.wellLinked_of_parse h).table_eq,
    (Cursor.wellLinked_of_parse h').table_eq, ← Program.table_relabel hfaithful,
    ← Program.table_relabel hfaithful, htree]

/-- **The numbering of a program that was read is canonical.** A visitor that goes inside everything
meets the names with the identities 0, 1, 2 and so on, without a gap; the functions have the
identities 0, 1, 2 and so on in the order in which they end. So no two names and no two functions
share an identity, and a function has a higher one than those in its body. Two programs that were
read and have one shape and the same texts differ in their spans alone. -/
theorem Cursor.numbered_canonically {cursor : Cursor} {program : LinkedProgram}
    (h : cursor.parse = .ok program) :
    (program.visit fun _ => true).filterMap Node.name? = program.names ∧
    program.names.map (·.id.index) = List.range program.names.length ∧
    program.functionsInsideOut.map (·.id.index) =
      List.range program.functionsInsideOut.length ∧
    (program.names.map (·.id)).Nodup ∧ (program.functions.map (·.id)).Nodup ∧
    (∀ outer ∈ program.functions, ∀ inner ∈ outer.body.functions,
      inner.id.index < outer.id.index) ∧
    ∀ (cursor' : Cursor) (other : LinkedProgram), cursor'.parse = .ok other →
      program.toProgram.relabel .textsOnly = other.toProgram.relabel .textsOnly →
      program.relabel .forgetSpans = other.relabel .forgetSpans := by
  have hnames := Cursor.names_of_parse h
  refine ⟨program.names_visit, hnames, Cursor.functionsInsideOut_of_parse h, ?_,
    (Cursor.wellLinked_of_parse h).nodup_functions, ?_, ?_⟩
  · apply ProgramDerivation.nodup_map_of_index (·.index)
    rw [hnames]
    exact List.nodup_range
  · intro outer houter inner hinner
    exact Cursor.lt_of_mem_body h houter hinner
  · intro cursor' other h' htexts
    exact Cursor.relabel_forgetSpans_of_textsOnly h h' htexts

/-- In `def i = λx.x (i λy.λz.y)` the seven names are numbered from left to right and `λz`, which
ends first, comes before `λy`; other spans, even backward ones, change nothing else. -/
theorem Cursor.numbered_canonically_of_nested_functions :
    ∃ (tokens : Span → List Token) (program other : LinkedProgram),
      (∀ span, (tokens span).map (·.lexeme) =
        ["def", "i", "=", "λ", "x", ".", "x", "(", "i", "λ", "y", ".", "λ", "z", ".", "y", ")"]) ∧
      (Cursor.ofTokens (tokens ⟨0, 1⟩)).parse = .ok program ∧
      (Cursor.ofTokens (tokens ⟨5, 2⟩)).parse = .ok other ∧
      (program.names.map (·.text) = ["i", "x", "x", "i", "y", "z", "y"] ∧
        program.names.map (·.id.index) = [0, 1, 2, 3, 4, 5, 6]) ∧
      (program.functionsInsideOut.map (·.parameter.text) = ["x", "z", "y"] ∧
        program.functionsInsideOut.map (·.id.index) = [0, 1, 2]) ∧
      other ≠ program ∧ program.relabel .forgetSpans = other.relabel .forgetSpans := by
  let derivation (span : Span) : ProgramDerivation :=
    { definitions := [⟨⟨"def", span⟩, ⟨"i", span⟩, ⟨"=", span⟩,
        .function ⟨"λ", span⟩ ⟨"x", span⟩ ⟨".", span⟩ (.name ⟨"x", span⟩)⟩]
      expression := some (.application ⟨"(", span⟩ (.name ⟨"i", span⟩)
        (.function ⟨"λ", span⟩ ⟨"y", span⟩ ⟨".", span⟩
          (.function ⟨"λ", span⟩ ⟨"z", span⟩ ⟨".", span⟩ (.name ⟨"y", span⟩))) ⟨")", span⟩) }
  have hparse (span : Span) : (Cursor.ofTokens (derivation span).tokens).parse =
      .ok ⟨(derivation span).build, (derivation span).build.table⟩ := by
    refine Cursor.parse_eq_ok_iff.2 ⟨derivation span, rfl, ?_, by simp [derivation], rfl⟩
    simp [derivation, ProgramDerivation.expressions, ExprDerivation.height, maxNesting]
  obtain ⟨_, hnames, hfunctions, _, _, _, hsame⟩ :=
    Cursor.numbered_canonically (hparse ⟨0, 1⟩)
  refine ⟨fun span => (derivation span).tokens, _, _, fun _ => rfl, hparse ⟨0, 1⟩, hparse ⟨5, 2⟩,
    ⟨rfl, hnames⟩, ⟨rfl, hfunctions⟩, ?_, hsame _ _ (hparse ⟨5, 2⟩) rfl⟩
  decide

end ScopedLambda
