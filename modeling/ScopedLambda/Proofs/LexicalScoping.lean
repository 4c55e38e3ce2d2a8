import ScopedLambda.Proofs.Numbering
import ScopedLambda.Proofs.Places
import ScopedLambda.Proofs.Walk

/-!
# Lexical scoping

The walk carries scopes along; the rule of the language speaks of places only. A use refers to the
innermost function around it that has its text as parameter; if there is none and the use stands in
the trailing expression, to the definition of that name; else to nothing.

* `Expr.Encloses` — a function that stands on the way down a path, which goes on into its body.
* `Expr.Innermost` — the innermost of those that have a text as their parameter.
* `Program.Refers` — the rule: what a text refers to at a place.
* `Expr.scopeAt` — the scope in which a walk meets the end of a path.

Principal results: `Program.refers_binder?_scopeAt` — that scope knows every text by the rule;
`Program.Refers.unique` — the rule says one thing of a place; `Cursor.uses_scoped_lexically` — the
table of a linked program agrees with the rule at every use.
-/

set_option autoImplicit false

namespace ScopedLambda

/-! ## The rule -/

/-- `function` stands at the end of `outer`, and `path` leads on from there into its body. -/
def Expr.Encloses (expr : Expr) (path outer : List Branch) (function : FunctionNode) : Prop :=
  expr.descend? outer = some function.expr ∧ outer ++ [.body] <+: path

/-- `function` encloses the end of `path` and has `text` as its parameter, and every function of
which that is true, too, is around it or is itself. -/
def Expr.Innermost (expr : Expr) (path : List Branch) (text : String)
    (function : FunctionNode) : Prop :=
  ∃ outer, expr.Encloses path outer function ∧ function.parameter.text = text ∧
    ∀ inner other, expr.Encloses path inner other → other.parameter.text = text → inner <+: outer

/-- No function around the end of `path` has `text` as its parameter. -/
def Expr.Unbound (expr : Expr) (path : List Branch) (text : String) : Prop :=
  ∀ outer function, expr.Encloses path outer function → function.parameter.text ≠ text

/-- What a text refers to at a place of a program. -/
inductive Program.Refers (program : Program) (root : Option Nat) (path : List Branch)
    (text : String) : Option Binder → Prop where
  | parameter {whole : Expr} {function : FunctionNode} (hroot : program.root? root = some whole)
    (hinnermost : whole.Innermost path text function) :
    Refers program root path text (some (.function function.id))
  | definition {whole : Expr} {index : Nat} {definition : Definition}
    (hroot : program.root? root = some whole) (hunbound : whole.Unbound path text)
    (htrailing : root = none) (hdefinition : program.definitions[index]? = some definition)
    (hname : definition.name.text = text) :
    Refers program root path text (some (.definition index))
  | free {whole : Expr} (hroot : program.root? root = some whole)
    (hunbound : whole.Unbound path text)
    (hunknown : root = none → ∀ definition ∈ program.definitions, definition.name.text ≠ text) :
    Refers program root path text none

/-! ## Functions around a place -/

namespace Expr

/-- Inside a function, that function is around a place besides those around it in the body. -/
theorem encloses_lam_body {id : FunctionId} {parameter : Name} {body : Expr} {span : Span}
    {path outer : List Branch} {function : FunctionNode} :
    (Expr.lam id parameter body span).Encloses (.body :: path) outer function ↔
      (outer = [] ∧ function = ⟨id, parameter, body, span⟩) ∨
        ∃ rest, outer = .body :: rest ∧ body.Encloses path rest function := by
  unfold Encloses
  cases outer with
  | nil =>
    have hself : some (Expr.lam id parameter body span) = some function.expr ↔
        function = ⟨id, parameter, body, span⟩ := by
      rw [Option.some_inj, ← FunctionNode.expr_inj, eq_comm]
      rfl
    simp [hself]
  | cons branch rest => cases branch <;> simp

theorem encloses_app_callee {callee argument : Expr} {span : Span} {path outer : List Branch}
    {function : FunctionNode} :
    (Expr.app callee argument span).Encloses (.callee :: path) outer function ↔
      ∃ rest, outer = .callee :: rest ∧ callee.Encloses path rest function := by
  unfold Encloses
  cases outer with
  | nil => simp
  | cons branch rest => cases branch <;> simp

theorem encloses_app_argument {callee argument : Expr} {span : Span} {path outer : List Branch}
    {function : FunctionNode} :
    (Expr.app callee argument span).Encloses (.argument :: path) outer function ↔
      ∃ rest, outer = .argument :: rest ∧ argument.Encloses path rest function := by
  unfold Encloses
  cases outer with
  | nil => simp
  | cons branch rest => cases branch <;> simp

/-- There is one innermost function at most. -/
theorem Innermost.unique {expr : Expr} {path : List Branch} {text : String}
    {first second : FunctionNode} (hfirst : expr.Innermost path text first)
    (hsecond : expr.Innermost path text second) : first = second := by
  obtain ⟨outer, hencloses, htext, hlast⟩ := hfirst
  obtain ⟨outer', hencloses', htext', hlast'⟩ := hsecond
  have hprefix := hlast _ _ hencloses' htext'
  have hprefix' := hlast' _ _ hencloses htext
  obtain rfl := hprefix'.eq_of_length_le hprefix.length_le
  have heq := hencloses.1.symm.trans hencloses'.1
  exact FunctionNode.expr_inj.1 (Option.some.inj heq)

theorem Innermost.not_unbound {expr : Expr} {path : List Branch} {text : String}
    {function : FunctionNode} (h : expr.Innermost path text function) :
    ¬ expr.Unbound path text := by
  obtain ⟨outer, hencloses, htext, _⟩ := h
  intro hunbound
  exact hunbound _ _ hencloses htext

/-- What is innermost on one side of an application is innermost in the application. -/
theorem Innermost.of_branch {whole side : Expr} {branch : Branch} {path : List Branch}
    {text : String} {function : FunctionNode} (h : side.Innermost path text function)
    (hside : ∀ outer function, whole.Encloses (branch :: path) outer function ↔
      ∃ rest, outer = branch :: rest ∧ side.Encloses path rest function) :
    whole.Innermost (branch :: path) text function := by
  obtain ⟨outer, hencloses, htext, hlast⟩ := h
  refine ⟨branch :: outer, (hside _ _).2 ⟨outer, rfl, hencloses⟩, htext, ?_⟩
  intro inner other hother hsame
  obtain ⟨rest, rfl, hinner⟩ := (hside _ _).1 hother
  exact List.cons_prefix_cons.2 ⟨rfl, hlast _ _ hinner hsame⟩

theorem Unbound.of_branch {whole side : Expr} {branch : Branch} {path : List Branch}
    {text : String} (h : side.Unbound path text)
    (hside : ∀ outer function, whole.Encloses (branch :: path) outer function ↔
      ∃ rest, outer = branch :: rest ∧ side.Encloses path rest function) :
    whole.Unbound (branch :: path) text := by
  intro outer function hencloses
  obtain ⟨rest, rfl, hinner⟩ := (hside _ _).1 hencloses
  exact h _ _ hinner

/-! ## The scope at a place -/

/-- The scope in which the walk meets the end of a path, when it begins in `scope`. -/
def scopeAt (scope : Scope) : Expr → List Branch → Scope
  | .lam id parameter body _, .body :: path => body.scopeAt (scope.bind parameter.text id) path
  | .app callee _ _, .callee :: path => callee.scopeAt scope path
  | .app _ argument _, .argument :: path => argument.scopeAt scope path
  | _, _ => scope

/-- The walk meets a use in the scope at its place, and inside one more scope for each step. -/
theorem mem_sightings_of_descend? {expr : Expr} {path : List Branch} {use : Name}
    (h : expr.descend? path = some (.var use)) (scope : Scope) (depth : Nat) :
    ⟨use, (expr.scopeAt scope path).binder? use.text, depth + path.length⟩ ∈
      expr.sightings scope depth := by
  induction path generalizing expr scope depth with
  | nil =>
    obtain rfl : expr = .var use := by simpa using h
    simp [scopeAt, sightings]
  | cons branch path ih =>
    obtain ⟨child, hchild, h⟩ := Option.bind_eq_some_iff.1 h
    have hdepth : depth + (branch :: path).length = depth + 1 + path.length := by
      rw [List.length_cons]
      omega
    rw [hdepth]
    cases expr with
    | var name => simp [child?] at hchild
    | lam id parameter body span =>
      cases branch <;> simp only [child?, Option.some.injEq, reduceCtorEq] at hchild
      subst hchild
      exact ih h _ _
    | app callee argument span =>
      cases branch <;> simp only [child?, Option.some.injEq, reduceCtorEq] at hchild
      · subst hchild
        exact List.mem_append_left _ (ih h _ _)
      · subst hchild
        exact List.mem_append_right _ (ih h _ _)

/-- Whatever the walk meets is a use that stands somewhere. -/
theorem exists_path_of_mem_sightings {expr : Expr} {scope : Scope} {depth : Nat}
    {sighting : Sighting} (h : sighting ∈ expr.sightings scope depth) :
    ∃ path, expr.descend? path = some (.var sighting.name) ∧
      sighting.binder = (expr.scopeAt scope path).binder? sighting.name.text ∧
      sighting.depth = depth + path.length := by
  induction expr generalizing scope depth with
  | var name =>
    obtain rfl := List.mem_singleton.1 h
    exact ⟨[], rfl, rfl, rfl⟩
  | lam id parameter body span ih =>
    obtain ⟨path, hpath, hbinder, hdepth⟩ := ih h
    refine ⟨.body :: path, hpath, hbinder, ?_⟩
    rw [hdepth, List.length_cons]
    omega
  | app callee argument span ihc iha =>
    rcases List.mem_append.1 h with h | h
    · obtain ⟨path, hpath, hbinder, hdepth⟩ := ihc h
      refine ⟨.callee :: path, hpath, hbinder, ?_⟩
      rw [hdepth, List.length_cons]
      omega
    · obtain ⟨path, hpath, hbinder, hdepth⟩ := iha h
      refine ⟨.argument :: path, hpath, hbinder, ?_⟩
      rw [hdepth, List.length_cons]
      omega

/-- On the way down no definition is added. -/
theorem definition?_scopeAt (scope : Scope) (expr : Expr) (path : List Branch) (text : String) :
    (expr.scopeAt scope path).definition? text = scope.definition? text := by
  fun_induction scopeAt scope expr path with
  | case1 scope id parameter body span path ih => rw [ih, Scope.definition?_bind]
  | case2 scope callee argument span path ih => exact ih
  | case3 scope callee argument span path ih => exact ih
  | case4 => rfl

/-- **On the way down a parameter becomes known by the innermost function that has it.** -/
theorem function?_scopeAt (scope : Scope) (expr : Expr) (path : List Branch) (text : String) :
    (∃ function, expr.Innermost path text function ∧
        (expr.scopeAt scope path).function? text = some function.id) ∨
      (expr.Unbound path text ∧
        (expr.scopeAt scope path).function? text = scope.function? text) := by
  fun_induction scopeAt scope expr path with
  | case1 scope id parameter body span path ih =>
    rcases ih with ⟨function, ⟨outer, hencloses, htext, hlast⟩, hlookup⟩ | ⟨hunbound, hlookup⟩
    · -- A function in the body is further inside than this one.
      refine .inl ⟨function, ⟨.body :: outer, ?_, htext, ?_⟩, hlookup⟩
      · exact encloses_lam_body.2 (.inr ⟨outer, rfl, hencloses⟩)
      · intro inner other hother hsame
        rcases encloses_lam_body.1 hother with ⟨rfl, _⟩ | ⟨rest, rfl, hinner⟩
        · exact List.nil_prefix
        · exact List.cons_prefix_cons.2 ⟨rfl, hlast _ _ hinner hsame⟩
    · rw [Scope.function?_bind] at hlookup
      by_cases htext : text = parameter.text
      · rw [if_pos htext] at hlookup
        refine .inl ⟨⟨id, parameter, body, span⟩, ⟨[], ?_, htext.symm, ?_⟩, hlookup⟩
        · exact encloses_lam_body.2 (.inl ⟨rfl, rfl⟩)
        · intro inner other hother hsame
          rcases encloses_lam_body.1 hother with ⟨rfl, _⟩ | ⟨rest, rfl, hinner⟩
          · exact List.nil_prefix
          · exact absurd hsame (hunbound _ _ hinner)
      · rw [if_neg htext] at hlookup
        refine .inr ⟨?_, hlookup⟩
        intro outer function hencloses
        rcases encloses_lam_body.1 hencloses with ⟨rfl, rfl⟩ | ⟨rest, rfl, hinner⟩
        · exact Ne.symm htext
        · exact hunbound _ _ hinner
  | case2 scope callee argument span path ih =>
    rcases ih with ⟨function, hinnermost, hlookup⟩ | ⟨hunbound, hlookup⟩
    · exact .inl ⟨function, hinnermost.of_branch fun _ _ => encloses_app_callee, hlookup⟩
    · exact .inr ⟨hunbound.of_branch fun _ _ => encloses_app_callee, hlookup⟩
  | case3 scope callee argument span path ih =>
    rcases ih with ⟨function, hinnermost, hlookup⟩ | ⟨hunbound, hlookup⟩
    · exact .inl ⟨function, hinnermost.of_branch fun _ _ => encloses_app_argument, hlookup⟩
    · exact .inr ⟨hunbound.of_branch fun _ _ => encloses_app_argument, hlookup⟩
  | case4 expr scope path hlam hcallee hargument =>
    refine .inr ⟨?_, rfl⟩
    rintro outer function ⟨hdescend, hprefix⟩ _
    cases outer with
    | nil =>
      obtain ⟨rest, rfl⟩ := hprefix
      obtain rfl : expr = function.expr := by simpa using hdescend
      exact hlam _ _ _ _ _ rfl rfl
    | cons branch outer =>
      obtain ⟨rest, rfl⟩ := hprefix
      obtain ⟨child, hchild, _⟩ := Option.bind_eq_some_iff.1 hdescend
      cases expr <;> cases branch <;> simp only [child?, reduceCtorEq] at hchild
      · exact hlam _ _ _ _ _ rfl rfl
      · exact hcallee _ _ _ _ rfl rfl
      · exact hargument _ _ _ _ rfl rfl

end Expr

/-! ## Programs -/

namespace Program

/-- The scope in which the walk begins a root expression. -/
def rootScope (program : Program) : Option Nat → Scope
  | none => program.scope
  | some _ => {}

/-- No parameter is known before a root expression is entered. -/
theorem function?_rootScope (program : Program) (root : Option Nat) (text : String) :
    (program.rootScope root).function? text = none := by
  cases root with
  | none => exact Scope.function?_defineAll {} 0 program.definitions text
  | some index => rfl

/-- In the scope of the trailing expression a definition is known by its index. -/
theorem definition?_scope {program : Program}
    (hnames : (program.definitions.map (·.name.text)).Nodup) {index : Nat}
    {definition : Definition} (h : program.definitions[index]? = some definition) :
    program.scope.definition? definition.name.text = some index := by
  rw [scope, Scope.definition?_defineAll hnames h, Nat.zero_add]

/-- The walk meets a use in the scope of its place. -/
theorem exists_mem_sightings {program : Program} {root : Option Nat} {whole : Expr}
    {path : List Branch} {use : Name} (hroot : program.root? root = some whole)
    (huse : whole.descend? path = some (.var use)) :
    ∃ depth, ⟨use, (whole.scopeAt (program.rootScope root) path).binder? use.text, depth⟩ ∈
      program.sightings := by
  cases root with
  | none =>
    have htrailing : program.expression = some whole := hroot
    refine ⟨1 + path.length, List.mem_append_right _ ?_⟩
    rw [htrailing, Option.toList_some, List.flatMap_cons, List.flatMap_nil, List.append_nil]
    exact Expr.mem_sightings_of_descend? huse _ _
  | some index =>
    obtain ⟨definition, hdefinition, rfl⟩ := Option.map_eq_some_iff.1 hroot
    refine ⟨2 + path.length, List.mem_append_left _ (List.mem_flatMap.2 ⟨definition, ?_, ?_⟩)⟩
    · exact List.mem_of_getElem? hdefinition
    · exact Expr.mem_sightings_of_descend? huse _ _

/-- **The scope at a place knows every text by the rule.** In a definition that holds whatever names
the definitions have. -/
theorem refers_binder?_scopeAt_of_root {program : Program} {root : Option Nat}
    (hnames : root = none → (program.definitions.map (·.name.text)).Nodup) {whole : Expr}
    (hroot : program.root? root = some whole) (path : List Branch) (text : String) :
    program.Refers root path text
      ((whole.scopeAt (program.rootScope root) path).binder? text) := by
  unfold Scope.binder?
  rcases Expr.function?_scopeAt (program.rootScope root) whole path text with
    ⟨function, hinnermost, hlookup⟩ | ⟨hunbound, hlookup⟩
  · rw [hlookup]
    exact .parameter hroot hinnermost
  · rw [hlookup, function?_rootScope, Expr.definition?_scopeAt]
    cases root with
    | some index => exact .free hroot hunbound (by simp)
    | none =>
      by_cases hknown : text ∈ program.definitions.map (·.name.text)
      · obtain ⟨definition, hmem, rfl⟩ := List.mem_map.1 hknown
        obtain ⟨index, hindex⟩ := List.mem_iff_getElem?.1 hmem
        rw [rootScope, definition?_scope (hnames rfl) hindex]
        exact .definition hroot hunbound rfl hindex rfl
      · rw [rootScope, scope, Scope.definition?_defineAll_of_notMem hknown]
        apply Refers.free hroot hunbound
        intro _ definition hmem htext
        exact hknown (List.mem_map.2 ⟨definition, hmem, htext⟩)

theorem refers_binder?_scopeAt {program : Program}
    (hnames : (program.definitions.map (·.name.text)).Nodup) {root : Option Nat} {whole : Expr}
    (hroot : program.root? root = some whole) (path : List Branch) (text : String) :
    program.Refers root path text
      ((whole.scopeAt (program.rootScope root) path).binder? text) :=
  refers_binder?_scopeAt_of_root (fun _ => hnames) hroot path text

/-- **At a place the rule gives a text one meaning.** -/
theorem Refers.unique {program : Program}
    (hnames : (program.definitions.map (·.name.text)).Nodup) {root : Option Nat}
    {path : List Branch} {text : String} {first second : Option Binder}
    (hfirst : program.Refers root path text first)
    (hsecond : program.Refers root path text second) : first = second := by
  have hwhole {whole whole' : Expr} (h : program.root? root = some whole)
      (h' : program.root? root = some whole') : whole = whole' := by simpa [h] using h'
  cases hfirst with
  | parameter hroot hinnermost =>
    cases hsecond with
    | parameter hroot' hinnermost' =>
      obtain rfl := hwhole hroot hroot'
      rw [hinnermost.unique hinnermost']
    | definition hroot' hunbound | free hroot' hunbound =>
      obtain rfl := hwhole hroot hroot'
      exact absurd hunbound hinnermost.not_unbound
  | definition hroot hunbound htrailing hdefinition hname =>
    cases hsecond with
    | parameter hroot' hinnermost =>
      obtain rfl := hwhole hroot hroot'
      exact absurd hunbound hinnermost.not_unbound
    | definition hroot' _ _ hdefinition' hname' =>
      have hindex := definition?_scope hnames hdefinition
      have hindex' := definition?_scope hnames hdefinition'
      rw [hname] at hindex
      rw [hname', hindex] at hindex'
      simpa using hindex'
    | free hroot' _ hunknown =>
      exact absurd hname (hunknown htrailing _ (List.mem_of_getElem? hdefinition))
  | free hroot hunbound hunknown =>
    cases hsecond with
    | parameter hroot' hinnermost =>
      obtain rfl := hwhole hroot hroot'
      exact absurd hunbound hinnermost.not_unbound
    | definition _ _ htrailing hdefinition hname =>
      exact absurd hname (hunknown htrailing _ (List.mem_of_getElem? hdefinition))
    | free => rfl

end Program

/-! ## Linked programs -/

/-- The table of a well linked program holds what the rule says of the use at a place. -/
theorem LinkedProgram.WellLinked.lookup_eq_some_iff {program : LinkedProgram}
    (h : program.WellLinked) {root : Option Nat} {path : List Branch} {use : Name}
    (huse : program.at? root path = some (.var use)) (binder : Option Binder) :
    program.table.bindings.lookup use.id = some binder ↔
      program.Refers root path use.text binder := by
  obtain ⟨whole, hroot, hpath⟩ := Program.at?_eq_some_iff.1 huse
  obtain ⟨depth, hmem⟩ := Program.exists_mem_sightings hroot hpath
  have hlookup := h.lookup_of_mem hmem
  have hrefers := Program.refers_binder?_scopeAt h.nodup_definitions hroot path use.text
  rw [hlookup, Option.some_inj]
  constructor
  · rintro rfl
    exact hrefers
  · intro hother
    exact hrefers.unique h.nodup_definitions hother

/-- What a use refers to by the table, it refers to by the rule. -/
theorem LinkedProgram.WellLinked.refers_of_binderOf? {program : LinkedProgram}
    (h : program.WellLinked) {root : Option Nat} {path : List Branch} {use : Name}
    (huse : program.at? root path = some (.var use)) {binder : Binder}
    (hbinder : program.table.binderOf? use.id = some binder) :
    program.Refers root path use.text (some binder) :=
  (h.lookup_eq_some_iff huse _).1 (Option.join_eq_some_iff.1 hbinder)

/-- A function that a use refers to is around the use wherever its identity stands. -/
theorem LinkedProgram.WellLinked.encloses_of_refers {program : LinkedProgram}
    (h : program.WellLinked) {root root' : Option Nat} {path outer : List Branch} {text : String}
    {function : FunctionNode}
    (hrefers : program.Refers root path text (some (.function function.id)))
    (hplace : program.at? root' outer = some function.expr) :
    root' = root ∧ outer ++ [.body] <+: path := by
  obtain ⟨id, hid⟩ : ∃ id, id = function.id := ⟨_, rfl⟩
  rw [← hid] at hrefers
  cases hrefers with
  | @parameter whole binding hroot hinnermost =>
    obtain ⟨inner, ⟨hdescend, hprefix⟩, _, _⟩ := hinnermost
    have hbinding : program.at? root inner = some binding.expr :=
      Program.at?_eq_some_iff.2 ⟨whole, hroot, hdescend⟩
    obtain ⟨rfl, rfl⟩ := Program.place_unique h.nodup_functions hbinding hplace hid
    exact ⟨rfl, hprefix⟩

/-- **Lexical scoping is exact.** The uses of a linked program are the names that stand where an
expression does, and the table holds for each what the rule says: it refers to the innermost
function around it that has its text as parameter, else — in the trailing expression — to the
definition of that name, else to nothing. So no use in a definition refers to a definition, and a
function that a use refers to has the use in its body, never on the other side of an application. -/
theorem Cursor.uses_scoped_lexically {cursor : Cursor} {program : LinkedProgram}
    (h : cursor.parse = .ok program) :
    (∀ use, use ∈ program.uses ↔ ∃ root path, program.at? root path = some (.var use)) ∧
    ∀ root path use, program.at? root path = some (.var use) →
      (∀ binder, program.table.binderOf? use.id = binder ↔
        program.Refers root path use.text binder) ∧
      (program.table.isFree use.id = true ↔ program.Refers root path use.text none) ∧
      (∀ index, program.table.binderOf? use.id = some (.definition index) → root = none) ∧
      ∀ function : FunctionNode,
        program.table.binderOf? use.id = some (.function function.id) →
        ∀ root' outer, program.at? root' outer = some function.expr →
          root' = root ∧ outer ++ [.body] <+: path ∧
          ∀ stem branch other, branch ≠ other →
            stem ++ [branch] <+: path → ¬ stem ++ [other] <+: outer := by
  have hlinked := Cursor.wellLinked_of_parse h
  refine ⟨fun use => Program.mem_uses_iff, ?_⟩
  intro root path use huse
  have hlookup := hlinked.lookup_eq_some_iff huse
  have hbinder (binder : Option Binder) : program.table.binderOf? use.id = binder ↔
      program.Refers root path use.text binder := by
    obtain ⟨answer, hanswer⟩ : ∃ answer, program.table.bindings.lookup use.id = some answer := by
      obtain ⟨whole, hroot, hpath⟩ := Program.at?_eq_some_iff.1 huse
      exact ⟨_, (hlookup _).2
        (Program.refers_binder?_scopeAt hlinked.nodup_definitions hroot path use.text)⟩
    rw [← hlookup, BindingTable.binderOf?, hanswer, Option.join_some, Option.some_inj]
  refine ⟨hbinder, ?_, ?_, ?_⟩
  · rw [← hlookup, BindingTable.isFree, beq_iff_eq]
  · intro index hindex
    cases (hbinder _).1 hindex with
    | definition _ _ htrailing _ _ => exact htrailing
  · intro function hfunction root' outer hplace
    obtain ⟨hsame, hbody⟩ := hlinked.encloses_of_refers ((hbinder _).1 hfunction) hplace
    refine ⟨hsame, hbody, ?_⟩
    intro stem branch other hne hpath houter
    have hpath' : stem ++ [other] <+: path :=
      houter.trans ((List.prefix_append outer [.body]).trans hbody)
    have heq : stem ++ [branch] = stem ++ [other] :=
      (List.prefix_of_prefix_length_le hpath hpath' (by simp)).eq_of_length (by simp)
    exact hne (by simpa using heq)

/-- In `def x = x (x λx.x)` the three uses of `x` have three meanings. -/
theorem Cursor.uses_scoped_lexically_of_one_name :
    ∃ program : LinkedProgram,
      (Cursor.ofTokens
        [⟨.keyword, "def", ⟨0, 3⟩⟩, ⟨.name, "x", ⟨4, 5⟩⟩, ⟨.equals, "=", ⟨6, 7⟩⟩,
          ⟨.name, "x", ⟨8, 9⟩⟩, ⟨.openParen, "(", ⟨10, 11⟩⟩, ⟨.name, "x", ⟨11, 12⟩⟩,
          ⟨.lambda, "λ", ⟨13, 15⟩⟩, ⟨.name, "x", ⟨15, 16⟩⟩, ⟨.dot, ".", ⟨16, 17⟩⟩,
          ⟨.name, "x", ⟨17, 18⟩⟩, ⟨.closeParen, ")", ⟨18, 19⟩⟩]).parse = .ok program ∧
      program.Refers (some 0) [] "x" none ∧
      program.Refers none [.callee] "x" (some (.definition 0)) ∧
      program.Refers none [.argument, .body] "x" (some (.function ⟨0⟩)) := by
  let derivation : ProgramDerivation :=
    { definitions := [⟨⟨"def", ⟨0, 3⟩⟩, ⟨"x", ⟨4, 5⟩⟩, ⟨"=", ⟨6, 7⟩⟩, .name ⟨"x", ⟨8, 9⟩⟩⟩]
      expression := some (.application ⟨"(", ⟨10, 11⟩⟩ (.name ⟨"x", ⟨11, 12⟩⟩)
        (.function ⟨"λ", ⟨13, 15⟩⟩ ⟨"x", ⟨15, 16⟩⟩ ⟨".", ⟨16, 17⟩⟩ (.name ⟨"x", ⟨17, 18⟩⟩))
        ⟨")", ⟨18, 19⟩⟩) }
  have hheights : ∀ expression ∈ derivation.expressions, expression.height ≤ maxNesting := by
    simp [derivation, ProgramDerivation.expressions, ExprDerivation.height, maxNesting]
  have h : (Cursor.ofTokens derivation.tokens).parse =
      .ok ⟨derivation.build, derivation.build.table⟩ :=
    Cursor.parse_eq_ok_iff.2 ⟨derivation, rfl, hheights, by simp [derivation], rfl⟩
  have hrule := (Cursor.uses_scoped_lexically h).2
  refine ⟨_, h, ?_, ?_, ?_⟩
  · exact ((hrule (some 0) [] _ rfl).1 none).1 rfl
  · exact ((hrule none [.callee] _ rfl).1 _).1 rfl
  · exact ((hrule none [.argument, .body] _ rfl).1 _).1 rfl

end ScopedLambda
