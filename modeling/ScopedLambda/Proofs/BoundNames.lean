import ScopedLambda.Proofs.Lookups

/-!
# Bound names

Whether an expression binds a text is asked of the tree alone; what the uses in it refer to is found
by the walk that links the program. The two agree: inside an expression that does not bind a text,
the scope knows the text throughout as it does at the top of the expression. An expression that does
bind a text may well have uses of it that refer to something outside.

* `Expr.scopeAt_append` — the scope at a place inside a part of an expression.

Principal results: `Expr.binds_iff_exists_place` — a text is bound where a function has it as
parameter; `Expr.binder?_scopeAt_of_binds_eq_false` — on the way down nothing changes for a text
that is not bound; `Cursor.binds_agrees_with_table` — whether texts are bound, and the table.
-/

set_option autoImplicit false

namespace ScopedLambda

/-! ## Expressions -/

namespace Expr

/-- **A text is bound inside an expression if a function somewhere in it has it as parameter.** -/
theorem binds_iff_exists_place {expr : Expr} {text : String} :
    expr.binds text = true ↔ ∃ (down : List Branch) (function : FunctionNode),
      expr.descend? down = some function.expr ∧ function.parameter.text = text := by
  simp only [binds_iff, mem_functions_iff]
  constructor
  · rintro ⟨function, ⟨down, hdown⟩, htext⟩
    exact ⟨down, function, hdown, htext⟩
  · rintro ⟨down, function, hdown, htext⟩
    exact ⟨function, ⟨down, hdown⟩, htext⟩

theorem scopeAt_nil (scope : Scope) (expr : Expr) : expr.scopeAt scope [] = scope := by
  cases expr <;> rfl

/-- The walk goes on inside a part with the scope that it has at the top of the part. -/
theorem scopeAt_append {whole expr : Expr} {path : List Branch}
    (h : whole.descend? path = some expr) (scope : Scope) (way : List Branch) :
    whole.scopeAt scope (path ++ way) = expr.scopeAt (whole.scopeAt scope path) way := by
  induction path generalizing whole scope with
  | nil =>
    obtain rfl : whole = expr := by simpa using h
    rw [List.nil_append, scopeAt_nil]
  | cons branch path ih =>
    obtain ⟨child, hchild, h⟩ := Option.bind_eq_some_iff.1 h
    cases whole with
    | var name => simp [child?] at hchild
    | lam id parameter body span =>
      cases branch <;> simp only [child?, Option.some.injEq, reduceCtorEq] at hchild
      subst hchild
      exact ih h _
    | app callee argument span =>
      cases branch <;> simp only [child?, Option.some.injEq, reduceCtorEq] at hchild
      · subst hchild
        exact ih h _
      · subst hchild
        exact ih h _

/-- **On the way down nothing changes for a text that is not bound.** -/
theorem binder?_scopeAt_of_binds_eq_false {expr : Expr} {text : String}
    (h : expr.binds text = false) (scope : Scope) (way : List Branch) :
    (expr.scopeAt scope way).binder? text = scope.binder? text := by
  unfold Scope.binder?
  rw [definition?_scopeAt]
  rcases function?_scopeAt scope expr way text with ⟨function, hinnermost, _⟩ | ⟨_, hlookup⟩
  · obtain ⟨outer, ⟨hdescend, _⟩, htext, _⟩ := hinnermost
    rw [binds_iff_exists_place.2 ⟨outer, function, hdescend, htext⟩] at h
    cases h
  · rw [hlookup]

end Expr

/-! ## Programs -/

/-- The trailing expression alone binds a text for the program. -/
theorem Program.binds_iff_exists_place {program : Program} {text : String} :
    program.binds text = true ↔ ∃ (path : List Branch) (function : FunctionNode),
      program.at? none path = some function.expr ∧ function.parameter.text = text := by
  simp only [binds, Option.any_eq_true, Expr.binds_iff_exists_place, at?_eq_some_iff, root?]
  constructor
  · rintro ⟨expr, hexpr, path, function, hpath, htext⟩
    exact ⟨path, function, ⟨expr, hexpr, hpath⟩, htext⟩
  · rintro ⟨path, function, ⟨expr, hexpr, hpath⟩, htext⟩
    exact ⟨expr, hexpr, path, function, hpath, htext⟩

namespace LinkedProgram.WellLinked

variable {program : LinkedProgram}

/-- What a use refers to is what the scope at its place knows its text by. -/
theorem binderOf?_eq_scopeAt (h : program.WellLinked) {root : Option Nat} {whole : Expr}
    (hroot : program.root? root = some whole) {path : List Branch} {use : Name}
    (huse : whole.descend? path = some (.var use)) :
    program.table.binderOf? use.id =
      (whole.scopeAt (program.rootScope root) path).binder? use.text := by
  obtain ⟨depth, hmem⟩ := Program.exists_mem_sightings hroot huse
  exact h.binderOf?_of_mem hmem

/-- Wherever the function stands that a use refers to, its parameter has the text of the use. -/
theorem parameter_text_of_binderOf? (h : program.WellLinked) {root root' : Option Nat}
    {path outer : List Branch} {use : Name} (huse : program.at? root path = some (.var use))
    {function : FunctionNode} (hfunction : program.at? root' outer = some function.expr)
    (hbinder : program.table.binderOf? use.id = some (.function function.id)) :
    function.parameter.text = use.text := by
  have hfound : program.function? function.id = some function :=
    h.function?_eq_some_iff.2 ⟨Program.mem_functions_iff.2 ⟨root', outer, hfunction⟩, rfl⟩
  obtain ⟨other, _, _, hother, htext, _⟩ := h.function?_of_binderOf? huse hbinder
  obtain rfl : function = other := Option.some.inj (hfound.symm.trans hother)
  exact htext

end LinkedProgram.WellLinked

/-- **Whether an expression binds a text agrees with what uses refer to.** An expression of a linked
program binds a text exactly if a function in it, the expression itself included, has it as
parameter. It does if a use of the text in it refers to a function in it. If it does not, all uses of
the text in it refer to the same, which is what the rule says of the text at the place of the
expression: the innermost function around it that has the text as parameter, else — in the trailing
expression — the definition of that name, else nothing. The program binds what its trailing
expression does, and nothing without one. -/
theorem Cursor.binds_agrees_with_table {cursor : Cursor} {program : LinkedProgram}
    (h : cursor.parse = .ok program) (text : String) :
    (∀ root path expr, program.at? root path = some expr →
      (expr.binds text = true ↔ ∃ (down : List Branch) (function : FunctionNode),
        expr.descend? down = some function.expr ∧ function.parameter.text = text) ∧
      (∀ way use down (function : FunctionNode), expr.descend? way = some (.var use) →
        use.text = text → expr.descend? down = some function.expr →
        program.table.binderOf? use.id = some (.function function.id) →
          expr.binds text = true) ∧
      (expr.binds text = false → ∃ binder, program.Refers root path text binder ∧
        ∀ way use, expr.descend? way = some (.var use) → use.text = text →
          program.table.binderOf? use.id = binder)) ∧
    (∀ expr, program.expression = some expr → program.binds text = expr.binds text) ∧
    (program.expression = none → program.binds text = false) ∧
    (program.binds text = true ↔ ∃ (path : List Branch) (function : FunctionNode),
      program.at? none path = some function.expr ∧ function.parameter.text = text) := by
  have hlinked := Cursor.wellLinked_of_parse h
  refine ⟨?_, ?_, ?_, Program.binds_iff_exists_place⟩
  · intro root path expr hplace
    obtain ⟨whole, hroot, hpath⟩ := Program.at?_eq_some_iff.1 hplace
    have hinside {way : List Branch} {inner : Expr} (hway : expr.descend? way = some inner) :
        whole.descend? (path ++ way) = some inner := by
      rw [Expr.descend?_append, hpath, Option.bind_some, hway]
    refine ⟨Expr.binds_iff_exists_place, ?_, ?_⟩
    · intro way use down function huse htext hfunction hbinder
      refine Expr.binds_iff_exists_place.2 ⟨down, function, hfunction, htext ▸ ?_⟩
      exact hlinked.parameter_text_of_binderOf?
        (Program.at?_eq_some_iff.2 ⟨whole, hroot, hinside huse⟩)
        (Program.at?_eq_some_iff.2 ⟨whole, hroot, hinside hfunction⟩) hbinder
    · intro hbinds
      refine ⟨(whole.scopeAt (program.rootScope root) path).binder? text,
        Program.refers_binder?_scopeAt hlinked.nodup_definitions hroot path text, ?_⟩
      rintro way use huse rfl
      rw [hlinked.binderOf?_eq_scopeAt hroot (hinside huse), Expr.scopeAt_append hpath,
        Expr.binder?_scopeAt_of_binds_eq_false hbinds]
  · intro expr hexpression
    rw [Program.binds, hexpression, Option.any_some]
  · intro hexpression
    rw [Program.binds, hexpression, Option.any_none]

/-- In `def y = λy.y (y λx.(x y))` the definition binds `y` and the trailing expression does not, so
both uses of `y` there refer to the same. -/
theorem Cursor.binds_agrees_with_table_of_definition :
    ∃ program : LinkedProgram,
      (Cursor.ofTokens
        [⟨.keyword, "def", ⟨0, 3⟩⟩, ⟨.name, "y", ⟨4, 5⟩⟩, ⟨.equals, "=", ⟨6, 7⟩⟩,
          ⟨.lambda, "λ", ⟨8, 10⟩⟩, ⟨.name, "y", ⟨10, 11⟩⟩, ⟨.dot, ".", ⟨11, 12⟩⟩,
          ⟨.name, "y", ⟨12, 13⟩⟩, ⟨.openParen, "(", ⟨14, 15⟩⟩, ⟨.name, "y", ⟨15, 16⟩⟩,
          ⟨.lambda, "λ", ⟨17, 19⟩⟩, ⟨.name, "x", ⟨19, 20⟩⟩, ⟨.dot, ".", ⟨20, 21⟩⟩,
          ⟨.openParen, "(", ⟨21, 22⟩⟩, ⟨.name, "x", ⟨22, 23⟩⟩, ⟨.name, "y", ⟨24, 25⟩⟩,
          ⟨.closeParen, ")", ⟨25, 26⟩⟩, ⟨.closeParen, ")", ⟨26, 27⟩⟩]).parse = .ok program ∧
      (∃ expr, program.at? (some 0) [] = some expr ∧ expr.binds "y" = true) ∧
      program.binds "y" = false ∧
      ∃ binder, program.Refers none [] "y" binder ∧
        program.table.binderOf? ⟨3⟩ = binder ∧ program.table.binderOf? ⟨6⟩ = binder := by
  let derivation : ProgramDerivation :=
    { definitions := [⟨⟨"def", ⟨0, 3⟩⟩, ⟨"y", ⟨4, 5⟩⟩, ⟨"=", ⟨6, 7⟩⟩,
        .function ⟨"λ", ⟨8, 10⟩⟩ ⟨"y", ⟨10, 11⟩⟩ ⟨".", ⟨11, 12⟩⟩ (.name ⟨"y", ⟨12, 13⟩⟩)⟩]
      expression := some (.application ⟨"(", ⟨14, 15⟩⟩ (.name ⟨"y", ⟨15, 16⟩⟩)
        (.function ⟨"λ", ⟨17, 19⟩⟩ ⟨"x", ⟨19, 20⟩⟩ ⟨".", ⟨20, 21⟩⟩
          (.application ⟨"(", ⟨21, 22⟩⟩ (.name ⟨"x", ⟨22, 23⟩⟩) (.name ⟨"y", ⟨24, 25⟩⟩)
            ⟨")", ⟨25, 26⟩⟩)) ⟨")", ⟨26, 27⟩⟩) }
  have hheights : ∀ expression ∈ derivation.expressions, expression.height ≤ maxNesting := by
    simp [derivation, ProgramDerivation.expressions, ExprDerivation.height, maxNesting]
  have h : (Cursor.ofTokens derivation.tokens).parse =
      .ok ⟨derivation.build, derivation.build.table⟩ :=
    Cursor.parse_eq_ok_iff.2 ⟨derivation, rfl, hheights, by simp [derivation], rfl⟩
  obtain ⟨hplaces, htrailing, _, _⟩ := Cursor.binds_agrees_with_table h "y"
  obtain ⟨binder, hrefers, huses⟩ := (hplaces none [] _ rfl).2.2 (by decide)
  refine ⟨_, h, ⟨_, rfl, ?_⟩, (htrailing _ rfl).trans (by decide), binder, hrefers, ?_, ?_⟩
  · exact (hplaces (some 0) [] _ rfl).1.2
      ⟨[], ⟨⟨0⟩, ⟨⟨1⟩, "y", ⟨10, 11⟩⟩, .var ⟨⟨2⟩, "y", ⟨12, 13⟩⟩, ⟨8, 13⟩⟩, rfl, rfl⟩
  · exact huses [.callee] _ rfl rfl
  · exact huses [.argument, .body, .argument] _ rfl rfl

end ScopedLambda
