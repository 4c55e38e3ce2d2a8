import ScopedLambda.Proofs.UseLists

/-!
# Looking things up by identity

The search for a function is a visitor: it goes inside the functions of other identities until it
has found one, and is still called at what comes beside and after that one. So it need not hold the
first function of an identity that it met; that it holds the only one rests on the numbering.

* `Visitor.Searched` — what a search holds after some functions, going by what it held before.

Principal results: `Visitor.searched_visitProgram` — a search that went through a program;
`LinkedProgram.WellLinked.function?_eq_some_iff` — in a linked program it finds exactly what is
there; `Cursor.identities_looked_up_exactly` — the functions, the binders of uses, and the binders
of other programs.
-/

set_option autoImplicit false

namespace ScopedLambda

/-! ## The search for a function -/

namespace Visitor

/-- What a search holds after it went through `functions`: one of those with the identity, or else
what it held before; if that was nothing, none of them has the identity. -/
def Searched (id : FunctionId) (functions : List FunctionNode)
    (before after : Option FunctionNode) : Prop :=
  (∃ function ∈ functions, function.id = id ∧ after = some function) ∨
    (after = before ∧ (before = none → ∀ function ∈ functions, function.id ≠ id))

variable {id : FunctionId}

theorem Searched.nil (held : Option FunctionNode) : Searched id [] held held :=
  .inr ⟨rfl, by simp⟩

theorem Searched.append {first second : List FunctionNode}
    {before between after : Option FunctionNode} (hfirst : Searched id first before between)
    (hsecond : Searched id second between after) : Searched id (first ++ second) before after := by
  rcases hsecond with ⟨function, hmem, hid, rfl⟩ | ⟨rfl, hnone⟩
  · exact .inl ⟨function, List.mem_append_right _ hmem, hid, rfl⟩
  · rcases hfirst with ⟨function, hmem, hid, rfl⟩ | ⟨rfl, hnone'⟩
    · exact .inl ⟨function, List.mem_append_left _ hmem, hid, rfl⟩
    · refine .inr ⟨rfl, fun hbefore function hmem => ?_⟩
      rcases List.mem_append.1 hmem with hmem | hmem
      · exact hnone' hbefore function hmem
      · exact hnone hbefore function hmem

/-- A search goes through all functions of an expression, or holds one already where it stays out. -/
theorem searched_visitExpr (expr : Expr) (before : Option FunctionNode) :
    Searched id expr.functions before ((finding id).visitExpr expr before) := by
  induction expr generalizing before with
  | var met => exact .nil before
  | lam other parameter body span ih =>
    show Searched id (⟨other, parameter, body, span⟩ :: body.functions) before
      (if other = id then some ⟨other, parameter, body, span⟩
        else if before.isNone then (finding id).visitExpr body before else before)
    by_cases hid : other = id
    · rw [if_pos hid]
      exact .inl ⟨_, List.mem_cons_self, hid, rfl⟩
    · rw [if_neg hid]
      cases before with
      | none =>
        have hself : Searched id [⟨other, parameter, body, span⟩] none none :=
          .inr ⟨rfl, by simpa using hid⟩
        exact hself.append (ih none)
      | some held => exact .inr ⟨rfl, by simp⟩
  | app callee argument span ihc iha => exact (ihc before).append (iha _)

/-- **A search that begins with nothing finds a function of the identity if there is one.** -/
theorem searched_visitProgram (whole : Program) :
    Searched id whole.functions none ((finding id).visitProgram whole none) := by
  have hall (expressions : List Expr) (before : Option FunctionNode) :
      Searched id (expressions.flatMap (·.functions)) before
        (expressions.foldl (fun held expr => (finding id).visitExpr expr held) before) := by
    induction expressions generalizing before with
    | nil => exact .nil before
    | cons expr rest ih => exact (searched_visitExpr expr before).append (ih _)
  have hvisit : (finding id).visitProgram whole none =
      whole.expressions.foldl (fun held expr => (finding id).visitExpr expr held) none := by
    rw [Program.expressions, List.foldl_append, List.foldl_map]
    cases hexpression : whole.expression <;> simp only [visitProgram, hexpression] <;> rfl
  rw [hvisit]
  exact hall whole.expressions none

end Visitor

namespace LinkedProgram.WellLinked

variable {program : LinkedProgram}

/-- **A linked program finds a function under its identity, and nothing else.** -/
theorem function?_eq_some_iff (h : program.WellLinked) {id : FunctionId}
    {function : FunctionNode} :
    program.function? id = some function ↔ function ∈ program.functions ∧ function.id = id := by
  have hsearched : Visitor.Searched id program.functions none (program.function? id) :=
    Visitor.searched_visitProgram program.toProgram
  constructor
  · intro hfound
    rw [hfound] at hsearched
    rcases hsearched with ⟨other, hmem, hid, heq⟩ | ⟨hnone, _⟩
    · obtain rfl := Option.some.inj heq
      exact ⟨hmem, hid⟩
    · cases hnone
  · rintro ⟨hmem, hid⟩
    rcases hsearched with ⟨other, hmem', hid', heq⟩ | ⟨_, hnone⟩
    · rw [heq, List.inj_on_of_nodup_map h.nodup_functions hmem' hmem (hid'.trans hid.symm)]
    · exact absurd hid (hnone rfl function hmem)

theorem function?_eq_none_iff (h : program.WellLinked) {id : FunctionId} :
    program.function? id = none ↔ ∀ function ∈ program.functions, function.id ≠ id := by
  rw [Option.eq_none_iff_forall_not_mem]
  simp only [Option.mem_def, h.function?_eq_some_iff, not_and]

/-! ## Binders -/

/-- A binder has a text exactly if the program introduces it. -/
theorem binderText?_eq_none_iff (h : program.WellLinked) {binder : Binder} :
    program.binderText? binder = none ↔ binder ∉ program.allBinders := by
  cases binder with
  | definition index =>
    simp [binderText?, definition?, Program.allBinders]
  | function id =>
    rw [binderText?, Option.map_eq_none_iff, h.function?_eq_none_iff]
    simp [Program.allBinders]

/-- Nothing refers to what the program does not introduce. -/
theorem usesOf_eq_nil (h : program.WellLinked) {binder : Binder}
    (hbinder : binder ∉ program.allBinders) : program.table.usesOf binder = [] := by
  rw [h.usesOf_eq, List.map_eq_nil_iff, List.filter_eq_nil_iff]
  intro use huse hrefers
  exact hbinder (h.mem_allBinders huse (eq_of_beq hrefers))

/-- A function that a use refers to is found under its identity, and has the use in its body. -/
theorem function?_of_binderOf? (h : program.WellLinked) {root : Option Nat} {path : List Branch}
    {use : Name} (huse : program.at? root path = some (.var use)) {id : FunctionId}
    (hbinder : program.table.binderOf? use.id = some (.function id)) :
    ∃ function outer rest, program.function? id = some function ∧
      function.parameter.text = use.text ∧ program.at? root outer = some function.expr ∧
      path = outer ++ .body :: rest ∧ function.body.descend? rest = some (.var use) := by
  cases h.refers_of_binderOf? huse hbinder with
  | @parameter whole function hroot hinnermost =>
    obtain ⟨outer, ⟨hdescend, rest, hpath⟩, htext, _⟩ := hinnermost
    rw [List.append_assoc, List.singleton_append] at hpath
    subst hpath
    have hplace : program.at? root outer = some function.expr :=
      Program.at?_eq_some_iff.2 ⟨whole, hroot, hdescend⟩
    refine ⟨function, outer, rest, ?_, htext, hplace, rfl, ?_⟩
    · exact h.function?_eq_some_iff.2 ⟨Program.mem_functions_iff.2 ⟨root, outer, hplace⟩, rfl⟩
    · rwa [Program.at?, hroot, Option.bind_some, Expr.descend?_append, hdescend] at huse

/-- A definition that a use refers to has the text of the use, which stands in the trailing
expression. -/
theorem definition?_of_binderOf? (h : program.WellLinked) {root : Option Nat} {path : List Branch}
    {use : Name} (huse : program.at? root path = some (.var use)) {index : Nat}
    (hbinder : program.table.binderOf? use.id = some (.definition index)) :
    root = none ∧ ∃ definition, program.definition? index = some definition ∧
      definition.name.text = use.text := by
  cases h.refers_of_binderOf? huse hbinder with
  | definition _ _ htrailing hdefinition hname => exact ⟨htrailing, _, hdefinition, hname⟩

/-- **What a use refers to has the text of the use.** -/
theorem binderText?_of_binderOf? (h : program.WellLinked) {root : Option Nat} {path : List Branch}
    {use : Name} (huse : program.at? root path = some (.var use)) {binder : Binder}
    (hbinder : program.table.binderOf? use.id = some binder) :
    program.binderText? binder = some use.text := by
  cases binder with
  | definition index =>
    obtain ⟨_, definition, hdefinition, htext⟩ := h.definition?_of_binderOf? huse hbinder
    rw [binderText?, hdefinition, Option.map_some, htext]
  | function id =>
    obtain ⟨function, _, _, hfunction, htext, _⟩ := h.function?_of_binderOf? huse hbinder
    rw [binderText?, hfunction, Option.map_some, htext]

end LinkedProgram.WellLinked

/-- **Lookups by identity are exact, and agree with what uses refer to.** A linked program finds
under an identity, be it its own or another program's, the function of that identity wherever one
stands in it, of which there is one at most, and nothing if there is none. What a use refers to has
its text; if it is a function, that is found and has the use in its body; if it is a definition,
that is there and the use stands in the trailing expression. Exactly the binders that the program
introduces have a text, and no others have uses. -/
theorem Cursor.identities_looked_up_exactly {cursor : Cursor} {program : LinkedProgram}
    (h : cursor.parse = .ok program) :
    (∀ id function, program.function? id = some function ↔
      function.id = id ∧ ∃ root path, program.at? root path = some function.expr) ∧
    (∀ id, program.function? id = none ↔
      ∀ root path (function : FunctionNode),
        program.at? root path = some function.expr → function.id ≠ id) ∧
    (∀ (function other : FunctionNode) root root' path path',
      program.at? root path = some function.expr → program.at? root' path' = some other.expr →
        function.id = other.id → root = root' ∧ path = path' ∧ function = other) ∧
    (∀ root path use binder, program.at? root path = some (.var use) →
      program.table.binderOf? use.id = some binder →
        program.binderText? binder = some use.text ∧
        (∀ id, binder = .function id → ∃ function outer rest,
          program.function? id = some function ∧ program.at? root outer = some function.expr ∧
            path = outer ++ .body :: rest ∧ function.body.descend? rest = some (.var use)) ∧
        ∀ index, binder = .definition index →
          root = none ∧ ∃ definition, program.definition? index = some definition) ∧
    ∀ binder, (program.binderText? binder = none ↔ binder ∉ program.allBinders) ∧
      (binder ∉ program.allBinders → program.table.usesOf binder = []) := by
  have hlinked := Cursor.wellLinked_of_parse h
  refine ⟨?_, ?_, ?_, ?_, fun binder => ⟨hlinked.binderText?_eq_none_iff, hlinked.usesOf_eq_nil⟩⟩
  · intro id function
    rw [hlinked.function?_eq_some_iff, Program.mem_functions_iff, and_comm]
  · intro id
    rw [hlinked.function?_eq_none_iff]
    constructor
    · intro hnone root path function hplace
      exact hnone function (Program.mem_functions_iff.2 ⟨root, path, hplace⟩)
    · intro hnone function hmem
      obtain ⟨root, path, hplace⟩ := Program.mem_functions_iff.1 hmem
      exact hnone root path function hplace
  · intro function other root root' path path' hplace hplace' hid
    obtain ⟨rfl, rfl⟩ := Program.place_unique hlinked.nodup_functions hplace hplace' hid
    have hsame := hplace.symm.trans hplace'
    exact ⟨rfl, rfl, FunctionNode.expr_inj.1 (Option.some.inj hsame)⟩
  · intro root path use binder huse hbinder
    refine ⟨hlinked.binderText?_of_binderOf? huse hbinder, ?_, ?_⟩
    · rintro id rfl
      obtain ⟨function, outer, rest, hfound, _, hplace, hpath, hbody⟩ :=
        hlinked.function?_of_binderOf? huse hbinder
      exact ⟨function, outer, rest, hfound, hplace, hpath, hbody⟩
    · rintro index rfl
      obtain ⟨htrailing, definition, hdefinition, _⟩ :=
        hlinked.definition?_of_binderOf? huse hbinder
      exact ⟨htrailing, definition, hdefinition⟩

/-- In `def i = λx.x (i λy.λz.y)` the function `λz` is found inside `λy`, and so is `λy` around the
use of its parameter; an identity that no function has stands for nothing. -/
theorem Cursor.identities_looked_up_exactly_of_nested_functions :
    ∃ program : LinkedProgram,
      (Cursor.ofTokens
        [⟨.keyword, "def", ⟨0, 3⟩⟩, ⟨.name, "i", ⟨4, 5⟩⟩, ⟨.equals, "=", ⟨6, 7⟩⟩,
          ⟨.lambda, "λ", ⟨8, 10⟩⟩, ⟨.name, "x", ⟨10, 11⟩⟩, ⟨.dot, ".", ⟨11, 12⟩⟩,
          ⟨.name, "x", ⟨12, 13⟩⟩, ⟨.openParen, "(", ⟨14, 15⟩⟩, ⟨.name, "i", ⟨15, 16⟩⟩,
          ⟨.lambda, "λ", ⟨17, 19⟩⟩, ⟨.name, "y", ⟨19, 20⟩⟩, ⟨.dot, ".", ⟨20, 21⟩⟩,
          ⟨.lambda, "λ", ⟨21, 23⟩⟩, ⟨.name, "z", ⟨23, 24⟩⟩, ⟨.dot, ".", ⟨24, 25⟩⟩,
          ⟨.name, "y", ⟨25, 26⟩⟩, ⟨.closeParen, ")", ⟨26, 27⟩⟩]).parse = .ok program ∧
      program.function? ⟨1⟩ =
        some ⟨⟨1⟩, ⟨⟨5⟩, "z", ⟨23, 24⟩⟩, .var ⟨⟨6⟩, "y", ⟨25, 26⟩⟩, ⟨21, 26⟩⟩ ∧
      program.binderText? (.function ⟨2⟩) = some "y" ∧
      program.binderText? (.definition 0) = some "i" ∧
      program.binderText? (.function ⟨3⟩) = none := by
  let derivation : ProgramDerivation :=
    { definitions := [⟨⟨"def", ⟨0, 3⟩⟩, ⟨"i", ⟨4, 5⟩⟩, ⟨"=", ⟨6, 7⟩⟩,
        .function ⟨"λ", ⟨8, 10⟩⟩ ⟨"x", ⟨10, 11⟩⟩ ⟨".", ⟨11, 12⟩⟩ (.name ⟨"x", ⟨12, 13⟩⟩)⟩]
      expression := some (.application ⟨"(", ⟨14, 15⟩⟩ (.name ⟨"i", ⟨15, 16⟩⟩)
        (.function ⟨"λ", ⟨17, 19⟩⟩ ⟨"y", ⟨19, 20⟩⟩ ⟨".", ⟨20, 21⟩⟩
          (.function ⟨"λ", ⟨21, 23⟩⟩ ⟨"z", ⟨23, 24⟩⟩ ⟨".", ⟨24, 25⟩⟩ (.name ⟨"y", ⟨25, 26⟩⟩)))
        ⟨")", ⟨26, 27⟩⟩) }
  have hheights : ∀ expression ∈ derivation.expressions, expression.height ≤ maxNesting := by
    simp [derivation, ProgramDerivation.expressions, ExprDerivation.height, maxNesting]
  have h : (Cursor.ofTokens derivation.tokens).parse =
      .ok ⟨derivation.build, derivation.build.table⟩ :=
    Cursor.parse_eq_ok_iff.2 ⟨derivation, rfl, hheights, by simp [derivation], rfl⟩
  obtain ⟨hfunctions, _, _, huses, hbinders⟩ := Cursor.identities_looked_up_exactly h
  refine ⟨_, h, ?_, ?_, ?_, ?_⟩
  · exact (hfunctions ⟨1⟩ _).2 ⟨rfl, none, [.argument, .body], rfl⟩
  · exact (huses none [.argument, .body, .body] _ _ rfl rfl).1
  · exact (huses none [.callee] _ _ rfl rfl).1
  · exact (hbinders (.function ⟨3⟩)).1.2 (by decide)

end ScopedLambda
