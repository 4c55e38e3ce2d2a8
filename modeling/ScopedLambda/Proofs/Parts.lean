import Mathlib.Data.List.Forall2
import ScopedLambda.Proofs.Derivation
import ScopedLambda.Proofs.Places

/-!
# Parts of a derivation

What stands at a place of a built tree was built from the part of the derivation at the same place,
and the tokens of a part are a run of the tokens of the whole. So where a node is to be found in a
text can be said with the tokens it was read from.

* `ExprDerivation.descend?`, `ProgramDerivation.at?` — the part of a derivation at a place.
* `ExprDerivation.first`, `ExprDerivation.last` — the tokens that an expression begins and ends
  with.
* `InOrder` — tokens that are not empty and stand one after the other.
* `Expr.partSpans`, `Definition.partSpans`, `Program.partSpans` — the spans of what stands next to
  each other in a node.
* `Span.Holds` — spans that lie in another one, one after the other.

Principal results: `ProgramDerivation.exists_part_of_at?`,
`ProgramDerivation.exists_part_of_definition` — nodes are built from parts;
`ExprDerivation.span_build` — a node reaches from its first token to its last one;
`ExprDerivation.holds_build` — a node holds its parts; `ProgramDerivation.map_token_names_build` —
the names of a program are its name tokens.
-/

set_option autoImplicit false

namespace ScopedLambda

/-! ## The part at a place -/

namespace ExprDerivation

/-- The part of a derivation one step down, if it has that branch. -/
def child? : ExprDerivation → Branch → Option ExprDerivation
  | .function _ _ _ body, .body => some body
  | .application _ callee _ _, .callee => some callee
  | .application _ _ argument _, .argument => some argument
  | _, _ => none

/-- The part of a derivation at the end of a path. -/
def descend? (derivation : ExprDerivation) : List Branch → Option ExprDerivation
  | [] => some derivation
  | branch :: path => (derivation.child? branch).bind (descend? · path)

/-- The part one step down is built from a part of the derivation. -/
theorem exists_part_of_child? {derivation : ExprDerivation} {names functions : Nat}
    {branch : Branch} {expr : Expr}
    (h : (derivation.build names functions).child? branch = some expr) :
    ∃ part names' functions', derivation.child? branch = some part ∧
      part.build names' functions' = expr ∧ part.tokens <:+: derivation.tokens ∧
      part.height ≤ derivation.height := by
  cases derivation with
  | name word => simp [build, Expr.child?] at h
  | function lambda parameter dot body =>
    cases branch <;> simp only [build, Expr.child?, Option.some.injEq, reduceCtorEq] at h
    refine ⟨body, _, _, rfl, h, ?_, Nat.le_succ _⟩
    exact ⟨[lambda.token .lambda, parameter.token .name, dot.token .dot], [], by simp [tokens]⟩
  | application openParen callee argument closeParen =>
    cases branch <;> simp only [build, Expr.child?, Option.some.injEq, reduceCtorEq] at h
    · refine ⟨callee, _, _, rfl, h, ?_, ?_⟩
      · exact ⟨[openParen.token .openParen], argument.tokens ++ [closeParen.token .closeParen],
          by simp [tokens]⟩
      · rw [height]
        omega
    · refine ⟨argument, _, _, rfl, h, ?_, ?_⟩
      · exact ⟨openParen.token .openParen :: callee.tokens, [closeParen.token .closeParen],
          by simp [tokens]⟩
      · rw [height]
        omega

/-- **What stands in a built expression is built from the part at the same place.** -/
theorem exists_part_of_descend? {derivation : ExprDerivation} {names functions : Nat}
    {path : List Branch} {expr : Expr}
    (h : (derivation.build names functions).descend? path = some expr) :
    ∃ part names' functions', derivation.descend? path = some part ∧
      part.build names' functions' = expr ∧ part.tokens <:+: derivation.tokens ∧
      part.height ≤ derivation.height := by
  induction path generalizing derivation names functions with
  | nil =>
    refine ⟨derivation, names, functions, rfl, ?_, List.infix_rfl, Nat.le_refl _⟩
    simpa using h
  | cons branch path ih =>
    obtain ⟨child, hchild, h⟩ := Option.bind_eq_some_iff.1 h
    obtain ⟨side, names', functions', hside, rfl, htokens, hheight⟩ := exists_part_of_child? hchild
    obtain ⟨part, names'', functions'', hpart, hbuild, htokens', hheight'⟩ := ih h
    refine ⟨part, names'', functions'', ?_, hbuild, htokens'.trans htokens,
      Nat.le_trans hheight' hheight⟩
    rw [descend?, hside]
    exact hpart

end ExprDerivation

theorem DefinitionDerivation.exists_part_of_buildAll {derivations : List DefinitionDerivation}
    {names functions index : Nat} {definition : Definition}
    (h : (buildAll names functions derivations)[index]? = some definition) :
    ∃ part names' functions', derivations[index]? = some part ∧
      part.build names' functions' = definition := by
  induction derivations generalizing names functions index with
  | nil => simp [buildAll] at h
  | cons derivation rest ih =>
    cases index with
    | zero => exact ⟨derivation, names, functions, rfl, by simpa [buildAll] using h⟩
    | succ index =>
      rw [buildAll, List.getElem?_cons_succ] at h
      exact ih h

namespace ProgramDerivation

/-- The derivation of a root expression. -/
def root? (derivation : ProgramDerivation) : Option Nat → Option ExprDerivation
  | none => derivation.expression
  | some index => derivation.definitions[index]?.map (·.expression)

/-- The part of a derivation at a place. -/
def at? (derivation : ProgramDerivation) (root : Option Nat) (path : List Branch) :
    Option ExprDerivation :=
  (derivation.root? root).bind (·.descend? path)

theorem tokens_infix_of_definition {derivation : ProgramDerivation} {index : Nat}
    {part : DefinitionDerivation} (h : derivation.definitions[index]? = some part) :
    part.tokens <:+: derivation.tokens := by
  obtain ⟨before, after, hsplit⟩ := List.append_of_mem (List.mem_of_getElem? h)
  refine ⟨before.flatMap (·.tokens),
    after.flatMap (·.tokens) ++ derivation.expression.toList.flatMap (·.tokens), ?_⟩
  simp [tokens, hsplit]

/-- A definition is built from the derivation at its index. -/
theorem exists_part_of_definition {derivation : ProgramDerivation} {index : Nat}
    {definition : Definition} (h : derivation.build.definitions[index]? = some definition) :
    ∃ part names functions, derivation.definitions[index]? = some part ∧
      part.build names functions = definition ∧ part.tokens <:+: derivation.tokens := by
  obtain ⟨part, names, functions, hpart, hbuild⟩ := DefinitionDerivation.exists_part_of_buildAll h
  exact ⟨part, names, functions, hpart, hbuild, tokens_infix_of_definition hpart⟩

/-- A root expression is built from the derivation of that root. -/
theorem exists_part_of_root? {derivation : ProgramDerivation} {root : Option Nat} {whole : Expr}
    (h : derivation.build.root? root = some whole) :
    ∃ part names functions, derivation.root? root = some part ∧
      part.build names functions = whole ∧ part.tokens <:+: derivation.tokens ∧
      part ∈ derivation.expressions := by
  cases root with
  | none =>
    obtain ⟨part, hpart, hbuild⟩ := Option.map_eq_some_iff.1 h
    refine ⟨part, _, _, hpart, hbuild, ?_, List.mem_append_right _ (by simp [hpart])⟩
    exact ⟨derivation.definitions.flatMap (·.tokens), [], by simp [tokens, hpart]⟩
  | some index =>
    obtain ⟨definition, hdefinition, rfl⟩ := Option.map_eq_some_iff.1 h
    obtain ⟨part, names, functions, hpart, rfl, htokens⟩ := exists_part_of_definition hdefinition
    refine ⟨part.expression, names + 1, functions, by simp [root?, hpart], rfl, ?_, ?_⟩
    · have hinside : part.expression.tokens <:+: part.tokens :=
        ⟨[part.keyword.token .keyword, part.name.token .name, part.equals.token .equals], [],
          by simp [DefinitionDerivation.tokens]⟩
      exact hinside.trans htokens
    · exact List.mem_append_left _ (List.mem_map_of_mem (List.mem_of_getElem? hpart))

/-- **What stands at a place of a built program is built from the part at that place.** -/
theorem exists_part_of_at? {derivation : ProgramDerivation} {root : Option Nat}
    {path : List Branch} {expr : Expr} (h : derivation.build.at? root path = some expr) :
    ∃ part names functions, derivation.at? root path = some part ∧
      part.build names functions = expr ∧ part.tokens <:+: derivation.tokens ∧
      ∃ whole ∈ derivation.expressions, part.height ≤ whole.height := by
  obtain ⟨whole, hroot, hpath⟩ := Program.at?_eq_some_iff.1 h
  obtain ⟨top, names, functions, htop, rfl, htokens, hmem⟩ := exists_part_of_root? hroot
  obtain ⟨part, names', functions', hpart, hbuild, htokens', hheight⟩ :=
    ExprDerivation.exists_part_of_descend? hpath
  refine ⟨part, names', functions', ?_, hbuild, htokens'.trans htokens, top, hmem, hheight⟩
  rw [at?, htop]
  exact hpart

end ProgramDerivation

/-! ## Names are name tokens -/

/-- The token that a name is read from. -/
def Name.token (name : Name) : Token := ⟨.name, name.text, name.span⟩

/-- The tokens that are names. -/
def nameTokens (tokens : List Token) : List Token := tokens.filter (·.kind == .name)

theorem nameTokens_append (first second : List Token) :
    nameTokens (first ++ second) = nameTokens first ++ nameTokens second :=
  List.filter_append ..

namespace ExprDerivation

theorem map_token_names_build (derivation : ExprDerivation) (names functions : Nat) :
    (derivation.build names functions).names.map (·.token) = nameTokens derivation.tokens := by
  induction derivation generalizing names functions with
  | name word => rfl
  | function lambda parameter dot body ih =>
    rw [build, Expr.names, List.map_cons, ih]
    rfl
  | application openParen callee argument closeParen ihc iha =>
    have hclose : nameTokens [closeParen.token .closeParen] = [] := rfl
    have hopen : nameTokens (application openParen callee argument closeParen).tokens =
        nameTokens (callee.tokens ++ (argument.tokens ++ [closeParen.token .closeParen])) := rfl
    rw [build, Expr.names, List.map_append, ihc, iha, hopen, nameTokens_append, nameTokens_append,
      hclose, List.append_nil]

end ExprDerivation

theorem DefinitionDerivation.map_token_names_buildAll (derivations : List DefinitionDerivation)
    (names functions : Nat) :
    ((buildAll names functions derivations).flatMap
        (fun definition => definition.name :: definition.expression.names)).map (·.token) =
      nameTokens (derivations.flatMap (·.tokens)) := by
  induction derivations generalizing names functions with
  | nil => rfl
  | cons derivation rest ih =>
    rw [buildAll, List.flatMap_cons, List.map_append, ih, List.flatMap_cons, nameTokens_append,
      List.map_cons, build, ExprDerivation.map_token_names_build]
    rfl

/-- **The names of a program are its name tokens, in the same order.** -/
theorem ProgramDerivation.map_token_names_build (derivation : ProgramDerivation) :
    derivation.build.names.map (·.token) = nameTokens derivation.tokens := by
  obtain ⟨definitions, expression⟩ := derivation
  rw [Program.names, tokens, List.map_append, nameTokens_append]
  congr 1
  · exact DefinitionDerivation.map_token_names_buildAll definitions 0 0
  · cases expression with
    | none => rfl
    | some expression => simp [build, expression.map_token_names_build]

/-! ## Spans in order -/

namespace Span

/-- Spans that are not empty and stand one after the other. -/
structure InOrder (spans : List Span) : Prop where
  nonempty : ∀ span ∈ spans, span.start < span.stop
  ascending : spans.Pairwise fun first second => first.stop ≤ second.start

/-- From the start of the first of some spans to the end of the last. -/
def Covers (span : Span) (spans : List Span) : Prop :=
  ∃ first last, spans.head? = some first ∧ spans.getLast? = some last ∧
    span = ⟨first.start, last.stop⟩

/-- Spans in order that lie in another one. -/
structure Holds (whole : Span) (parts : List Span) : Prop where
  inOrder : InOrder parts
  within : ∀ part ∈ parts, whole.start ≤ part.start ∧ part.stop ≤ whole.stop

theorem InOrder.sublist {spans part : List Span} (h : InOrder spans) (hpart : part.Sublist spans) :
    InOrder part :=
  ⟨fun span hmem => h.nonempty span (hpart.subset hmem), h.ascending.sublist hpart⟩

theorem InOrder.left {first second : List Span} (h : InOrder (first ++ second)) : InOrder first :=
  h.sublist (List.sublist_append_left _ _)

theorem InOrder.right {first second : List Span} (h : InOrder (first ++ second)) :
    InOrder second :=
  h.sublist (List.sublist_append_right _ _)

theorem inOrder_append_iff {first second : List Span} :
    InOrder (first ++ second) ↔ InOrder first ∧ InOrder second ∧
      ∀ earlier ∈ first, ∀ later ∈ second, earlier.stop ≤ later.start := by
  constructor
  · intro h
    exact ⟨h.left, h.right, (List.pairwise_append.1 h.ascending).2.2⟩
  · rintro ⟨hfirst, hsecond, hbetween⟩
    refine ⟨?_, List.pairwise_append.2 ⟨hfirst.ascending, hsecond.ascending, hbetween⟩⟩
    intro span hmem
    rcases List.mem_append.1 hmem with hmem | hmem
    · exact hfirst.nonempty span hmem
    · exact hsecond.nonempty span hmem

theorem covers_singleton (span : Span) : span.Covers [span] := ⟨span, span, rfl, rfl, rfl⟩

/-- What covers spans in order holds them. -/
theorem Covers.holds {whole : Span} {spans : List Span} (h : whole.Covers spans)
    (horder : InOrder spans) : whole.Holds spans := by
  obtain ⟨first, last, hfirst, hlast, rfl⟩ := h
  refine ⟨horder, ?_⟩
  intro span hmem
  constructor
  · obtain ⟨rest, rfl⟩ := List.head?_eq_some_iff.1 hfirst
    rcases List.mem_cons.1 hmem with rfl | hlater
    · exact Nat.le_refl _
    · have hnonempty := horder.nonempty first List.mem_cons_self
      have hafter := (List.pairwise_cons.1 horder.ascending).1 span hlater
      show first.start ≤ span.start
      omega
  · obtain ⟨init, rfl⟩ := List.getLast?_eq_some_iff.1 hlast
    rcases List.mem_append.1 hmem with hearlier | hself
    · have hnonempty := horder.nonempty last (by simp)
      have hbefore := (inOrder_append_iff.1 horder).2.2 span hearlier last (by simp)
      show span.stop ≤ last.stop
      omega
    · obtain rfl : span = last := by simpa using hself
      exact Nat.le_refl _

/-- What covers spans in order is not empty. -/
theorem Covers.start_lt_stop {whole : Span} {spans : List Span} (h : whole.Covers spans)
    (horder : InOrder spans) : whole.start < whole.stop := by
  obtain ⟨first, _, hfirst, _, _⟩ := id h
  have hmem := List.mem_of_head? hfirst
  have hwithin := (h.holds horder).within first hmem
  have hnonempty := horder.nonempty first hmem
  omega

/-- **The merged span of two runs covers all from the first to the second.** -/
theorem Covers.merge {first second : Span} {spans between spans' : List Span}
    (h : first.Covers spans) (h' : second.Covers spans')
    (horder : InOrder (spans ++ (between ++ spans'))) :
    (first.merge second).Covers (spans ++ (between ++ spans')) := by
  have hbetween := (inOrder_append_iff.1 horder).2.2
  have hfirst := h.start_lt_stop horder.left
  have hsecond := h'.start_lt_stop horder.right.right
  obtain ⟨head, last, hhead, hlast, rfl⟩ := h
  obtain ⟨head', last', hhead', hlast', rfl⟩ := h'
  refine ⟨head, last', ?_, ?_, ?_⟩
  · rw [List.head?_append, hhead]
    rfl
  · rw [List.getLast?_append, List.getLast?_append, hlast']
    rfl
  · have hafter := hbetween last (List.mem_of_getLast? hlast) head'
      (List.mem_append_right _ (List.mem_of_head? hhead'))
    simp only at hfirst hsecond
    simp only [Span.merge, Span.mk.injEq]
    omega

/-- What covers a run begins and ends with spans of it. -/
theorem exists_bounds_of_runs {parts : List Span} {runs : List (List Span)}
    (hruns : List.Forall₂ Covers parts runs) {part : Span} (hmem : part ∈ parts) :
    ∃ first ∈ runs.flatten, ∃ last ∈ runs.flatten, part = ⟨first.start, last.stop⟩ := by
  induction hruns with
  | nil => simp at hmem
  | @cons head run parts runs hcovers _ ih =>
    rw [List.flatten_cons]
    rcases List.mem_cons.1 hmem with rfl | hlater
    · obtain ⟨first, last, hfirst, hlast, hspan⟩ := hcovers
      exact ⟨first, List.mem_append_left _ (List.mem_of_head? hfirst), last,
        List.mem_append_left _ (List.mem_of_getLast? hlast), hspan⟩
    · obtain ⟨first, hfirst, last, hlast, hspan⟩ := ih hlater
      exact ⟨first, List.mem_append_right _ hfirst, last, List.mem_append_right _ hlast, hspan⟩

/-- **What covers runs of spans in order is in order itself.** -/
theorem InOrder.of_runs {parts : List Span} {runs : List (List Span)}
    (hruns : List.Forall₂ Covers parts runs) (horder : InOrder runs.flatten) :
    InOrder parts := by
  induction hruns with
  | nil => exact horder
  | @cons head run parts runs hcovers hrest ih =>
    rw [List.flatten_cons, inOrder_append_iff] at horder
    obtain ⟨hrun, hruns, hbetween⟩ := horder
    show InOrder ([head] ++ parts)
    refine inOrder_append_iff.2 ⟨⟨?_, List.pairwise_singleton _ _⟩, ih hruns, ?_⟩
    · intro span hspan
      obtain rfl : span = head := by simpa using hspan
      exact hcovers.start_lt_stop hrun
    · intro span hspan later hlater
      obtain rfl : span = head := by simpa using hspan
      obtain ⟨_, last, _, hlast, rfl⟩ := hcovers
      obtain ⟨first, hfirst, _, _, rfl⟩ := exists_bounds_of_runs hrest hlater
      exact hbetween last (List.mem_of_getLast? hlast) first hfirst

/-- **Parts that cover runs of what a span holds are held by it.** -/
theorem Holds.of_runs {whole : Span} {spans parts : List Span} {runs : List (List Span)}
    (h : whole.Holds spans) (hruns : List.Forall₂ Covers parts runs)
    (hsublist : runs.flatten.Sublist spans) : whole.Holds parts := by
  refine ⟨.of_runs hruns (h.inOrder.sublist hsublist), ?_⟩
  intro part hmem
  obtain ⟨first, hfirst, last, hlast, rfl⟩ := exists_bounds_of_runs hruns hmem
  exact ⟨(h.within first (hsublist.subset hfirst)).1, (h.within last (hsublist.subset hlast)).2⟩

end Span

/-! ## The spans of nodes -/

/-- The spans of what stands next to each other in an expression. -/
def Expr.partSpans : Expr → List Span
  | .var _ => []
  | .lam _ parameter body _ => [parameter.span, body.span]
  | .app callee argument _ => [callee.span, argument.span]

/-- The spans of what stands next to each other in a definition. -/
def Definition.partSpans (definition : Definition) : List Span :=
  [definition.name.span, definition.expression.span]

/-- The spans of what stands next to each other in a program. -/
def Program.partSpans (program : Program) : List Span :=
  program.definitions.map (·.span) ++ program.expression.toList.map (·.span)

/-- The spans of tokens. -/
def tokenSpans (tokens : List Token) : List Span := tokens.map (·.span)

theorem tokenSpans_append (first second : List Token) :
    tokenSpans (first ++ second) = tokenSpans first ++ tokenSpans second :=
  List.map_append

namespace ExprDerivation

theorem tokenSpans_function (lambda parameter dot : Word) (body : ExprDerivation) :
    tokenSpans (function lambda parameter dot body).tokens =
      [lambda.span] ++ ([parameter.span, dot.span] ++ tokenSpans body.tokens) := rfl

theorem tokenSpans_application (openParen : Word) (callee argument : ExprDerivation)
    (closeParen : Word) :
    tokenSpans (application openParen callee argument closeParen).tokens =
      [openParen.span] ++
        ((tokenSpans callee.tokens ++ tokenSpans argument.tokens) ++ [closeParen.span]) := by
  simp [tokenSpans, tokens, Word.token]

/-- **A built expression reaches from its first token to its last one.** -/
theorem covers_build {derivation : ExprDerivation}
    (h : Span.InOrder (tokenSpans derivation.tokens)) (names functions : Nat) :
    (derivation.build names functions).span.Covers (tokenSpans derivation.tokens) := by
  induction derivation generalizing names functions with
  | name word => exact Span.covers_singleton _
  | function lambda parameter dot body ih =>
    rw [tokenSpans_function] at h ⊢
    exact (Span.covers_singleton lambda.span).merge (ih h.right.right _ _) h
  | application openParen callee argument closeParen ihc iha =>
    rw [tokenSpans_application] at h ⊢
    exact (Span.covers_singleton openParen.span).merge (Span.covers_singleton closeParen.span) h

/-- **A built expression holds its parts.** -/
theorem holds_build {derivation : ExprDerivation}
    (h : Span.InOrder (tokenSpans derivation.tokens)) (names functions : Nat) :
    (derivation.build names functions).span.Holds (derivation.build names functions).partSpans := by
  have hwhole := (covers_build h names functions).holds h
  cases derivation with
  | name word => exact ⟨⟨by simp [build, Expr.partSpans], .nil⟩, by simp [build, Expr.partSpans]⟩
  | function lambda parameter dot body =>
    rw [tokenSpans_function] at h hwhole
    refine hwhole.of_runs (.cons (Span.covers_singleton parameter.span)
      (.cons (covers_build h.right.right (names + 1) functions) .nil)) ?_
    rw [List.flatten_cons, List.flatten_singleton]
    exact ((List.sublist_cons_self dot.span _).cons_cons parameter.span).cons lambda.span
  | application openParen callee argument closeParen =>
    rw [tokenSpans_application] at h hwhole
    have hsides := h.right.left
    refine hwhole.of_runs (.cons (covers_build hsides.left names functions)
      (.cons (covers_build hsides.right _ _) .nil)) ?_
    rw [List.flatten_cons, List.flatten_singleton]
    exact (List.sublist_append_left _ _).cons openParen.span

end ExprDerivation

namespace DefinitionDerivation

theorem tokenSpans_definition (derivation : DefinitionDerivation) :
    tokenSpans derivation.tokens = [derivation.keyword.span] ++
      ([derivation.name.span, derivation.equals.span] ++
        tokenSpans derivation.expression.tokens) := rfl

/-- A built definition reaches from its first token to its last one. -/
theorem covers_build {derivation : DefinitionDerivation}
    (h : Span.InOrder (tokenSpans derivation.tokens)) (names functions : Nat) :
    (derivation.build names functions).span.Covers (tokenSpans derivation.tokens) := by
  rw [tokenSpans_definition] at h ⊢
  exact (Span.covers_singleton derivation.keyword.span).merge
    (ExprDerivation.covers_build h.right.right _ _) h

/-- A built definition holds its parts. -/
theorem holds_build {derivation : DefinitionDerivation}
    (h : Span.InOrder (tokenSpans derivation.tokens)) (names functions : Nat) :
    (derivation.build names functions).span.Holds (derivation.build names functions).partSpans := by
  have hwhole := (covers_build h names functions).holds h
  rw [tokenSpans_definition] at h hwhole
  refine hwhole.of_runs (.cons (Span.covers_singleton derivation.name.span)
    (.cons (ExprDerivation.covers_build h.right.right _ _) .nil)) ?_
  rw [List.flatten_cons, List.flatten_singleton]
  exact ((List.sublist_cons_self derivation.equals.span _).cons_cons derivation.name.span).cons
    derivation.keyword.span

theorem covers_buildAll {derivations : List DefinitionDerivation}
    (h : Span.InOrder (tokenSpans (derivations.flatMap (·.tokens)))) (names functions : Nat) :
    List.Forall₂ Span.Covers ((buildAll names functions derivations).map (·.span))
      (derivations.map fun derivation => tokenSpans derivation.tokens) := by
  induction derivations generalizing names functions with
  | nil => exact .nil
  | cons derivation rest ih =>
    rw [List.flatMap_cons, tokenSpans_append] at h
    exact .cons (covers_build h.left _ _) (ih h.right _ _)

end DefinitionDerivation

/-- **The definitions and the trailing expression of a built program stand one after the other.** -/
theorem ProgramDerivation.inOrder_partSpans_build {derivation : ProgramDerivation}
    (h : Span.InOrder (tokenSpans derivation.tokens)) :
    Span.InOrder derivation.build.partSpans := by
  obtain ⟨definitions, expression⟩ := derivation
  have hparts : tokenSpans (ProgramDerivation.tokens ⟨definitions, expression⟩) =
      ((definitions.map fun derivation => tokenSpans derivation.tokens) ++
        expression.toList.map fun derivation => tokenSpans derivation.tokens).flatten := by
    simp [tokens, tokenSpans, List.flatMap_def, List.map_flatten, Function.comp_def]
  have hsplit := h
  rw [tokens, tokenSpans_append] at hsplit
  rw [hparts] at h
  refine .of_runs (List.rel_append ?_ ?_) h
  · exact DefinitionDerivation.covers_buildAll hsplit.left 0 0
  · cases expression with
    | none => exact .nil
    | some expression =>
      exact .cons (ExprDerivation.covers_build (by simpa using hsplit.right) _ _) .nil

end ScopedLambda
