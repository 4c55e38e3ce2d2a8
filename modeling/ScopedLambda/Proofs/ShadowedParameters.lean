import Mathlib.Data.List.Flatten
import ScopedLambda.Proofs.LexicalScoping

/-!
# Shadowed parameters

A parameter hides the equal one of a function around it. The walk notices it from the scope it has
with it; the rule speaks of places only: the hidden parameter is that of the innermost function
around the hiding one with the same text.

* `FunctionNode.shadowing` — the entry of a function whose parameter hides another's.
* `Program.Hides` — the rule: which function's parameter is hidden at a place.

Principal results: `Expr.mem_shadowings_iff`, `Program.mem_shadowings_iff` — the entries by the
scope and by the rule; `Program.shadowings_sublist` — each function has one entry at most, and
entries come in visiting order; `Cursor.lt_of_encloses` — a function has a higher number than those
inside it; `Cursor.shadowings_exact` — the entries of a linked program.
-/

set_option autoImplicit false

namespace ScopedLambda

/-- The entry which says that the function's parameter hides that of the function `shadowed`. -/
def FunctionNode.shadowing (function : FunctionNode) (shadowed : FunctionId) : Shadowing :=
  ⟨function.parameter.text, shadowed, function.id, function.parameter.span⟩

/-! ## Expressions -/

namespace Expr

theorem mem_shadowingOf_iff (function : FunctionNode) {scope : Scope} {entry : Shadowing} :
    entry ∈ shadowingOf scope function.id function.parameter ↔
      ∃ shadowed, scope.function? function.parameter.text = some shadowed ∧
        entry = function.shadowing shadowed := by
  unfold shadowingOf
  cases scope.function? function.parameter.text with
  | none => simp
  | some shadowed => simp [FunctionNode.shadowing]

/-- **The shadowings of an expression are by the functions whose parameter is known where they
stand.** -/
theorem mem_shadowings_iff {scope : Scope} {expr : Expr} {entry : Shadowing} :
    entry ∈ expr.shadowings scope ↔
      ∃ path, ∃ function : FunctionNode, ∃ shadowed, expr.descend? path = some function.expr ∧
        (expr.scopeAt scope path).function? function.parameter.text = some shadowed ∧
        entry = function.shadowing shadowed := by
  constructor
  · intro h
    induction expr generalizing scope with
    | var name => simp [shadowings] at h
    | lam id parameter body span ih =>
      rcases List.mem_append.1 h with h | h
      · obtain ⟨shadowed, hknown, rfl⟩ := (mem_shadowingOf_iff ⟨id, parameter, body, span⟩).1 h
        exact ⟨[], _, shadowed, rfl, hknown, rfl⟩
      · obtain ⟨path, function, shadowed, hpath, hentry⟩ := ih h
        exact ⟨.body :: path, function, shadowed, hpath, hentry⟩
    | app callee argument span ihc iha =>
      rcases List.mem_append.1 h with h | h
      · obtain ⟨path, function, shadowed, hpath, hentry⟩ := ihc h
        exact ⟨.callee :: path, function, shadowed, hpath, hentry⟩
      · obtain ⟨path, function, shadowed, hpath, hentry⟩ := iha h
        exact ⟨.argument :: path, function, shadowed, hpath, hentry⟩
  · rintro ⟨path, function, shadowed, hpath, hknown, hentry⟩
    induction path generalizing expr scope with
    | nil =>
      obtain rfl : expr = function.expr := by simpa using hpath
      exact List.mem_append_left _ ((mem_shadowingOf_iff function).2 ⟨shadowed, hknown, hentry⟩)
    | cons branch path ih =>
      cases expr with
      | var name => simp at hpath
      | lam id parameter body span =>
        cases branch with
        | body => exact List.mem_append_right _ (ih hpath hknown)
        | callee | argument => simp at hpath
      | app callee argument span =>
        cases branch with
        | body => simp at hpath
        | callee => exact List.mem_append_left _ (ih hpath hknown)
        | argument => exact List.mem_append_right _ (ih hpath hknown)

/-- Every function of an expression is the shadowing one of one entry at most, and the entries come
in the order of the functions. -/
theorem shadowings_sublist (scope : Scope) (expr : Expr) :
    ((expr.shadowings scope).map (·.shadowing)).Sublist (expr.functions.map (·.id)) := by
  induction expr generalizing scope with
  | var name => exact .refl _
  | lam id parameter body span ih =>
    have hbody := ih (scope.bind parameter.text id)
    simp only [shadowings, shadowingOf, functions, List.map_append, List.map_cons]
    cases scope.function? parameter.text with
    | none => exact hbody.cons _
    | some shadowed => exact hbody.cons_cons _
  | app callee argument span ihc iha =>
    simp only [shadowings, functions, List.map_append]
    exact (ihc scope).append (iha scope)

/-- What stands in an expression ends in it, in the same order. -/
theorem functionsInsideOut_sublist {expr part : Expr} {path : List Branch}
    (h : expr.descend? path = some part) :
    part.functionsInsideOut.Sublist expr.functionsInsideOut := by
  induction path generalizing expr with
  | nil =>
    obtain rfl : expr = part := by simpa using h
    exact .refl _
  | cons branch path ih =>
    obtain ⟨child, hchild, h⟩ := Option.bind_eq_some_iff.1 h
    refine (ih h).trans ?_
    rcases child?_eq_some hchild with ⟨id, parameter, span, rfl⟩ | ⟨argument, span, rfl⟩ |
      ⟨callee, span, rfl⟩
    · exact List.sublist_append_left _ _
    · exact List.sublist_append_left _ _
    · exact List.sublist_append_right _ _

/-- A function ends after those in its body. -/
theorem Encloses.sublist {expr : Expr} {path outer : List Branch} {around inner : FunctionNode}
    (h : expr.Encloses path outer around) (hinner : expr.descend? path = some inner.expr) :
    [inner, around].Sublist expr.functionsInsideOut := by
  obtain ⟨haround, rest, rfl⟩ := h
  rw [descend?_append, descend?_append, haround] at hinner
  have hbody : around.body.descend? rest = some inner.expr := hinner
  have hmem : inner ∈ around.body.functionsInsideOut :=
    (around.body.functionsInsideOut_perm.mem_iff).2 (mem_functions_iff.2 ⟨rest, hbody⟩)
  have hends : [inner, around].Sublist around.expr.functionsInsideOut :=
    (List.singleton_sublist.2 hmem).append (.refl [around])
  exact hends.trans (functionsInsideOut_sublist haround)

/-- A function from which a path goes on has the rest of the path in its body. -/
theorem encloses_of_prefix {expr part : Expr} {path outer : List Branch} {function : FunctionNode}
    (hpath : expr.descend? path = some part) (houter : expr.descend? outer = some function.expr)
    (hbegins : outer <+: path) (hne : outer ≠ path) : expr.Encloses path outer function := by
  refine ⟨houter, ?_⟩
  obtain ⟨rest, rfl⟩ := hbegins
  rw [descend?_append, houter] at hpath
  have hrest : function.expr.descend? rest = some part := hpath
  cases rest with
  | nil => simp at hne
  | cons branch rest =>
    cases branch with
    | body => exact ⟨rest, by simp⟩
    | callee | argument => simp [FunctionNode.expr] at hrest

end Expr

/-! ## Programs -/

namespace Program

/-- At the place of the function `inner` its parameter hides that of `outer`, the innermost function
around it with the same text. -/
def Hides (program : Program) (root : Option Nat) (path : List Branch)
    (inner outer : FunctionNode) : Prop :=
  ∃ whole, program.root? root = some whole ∧ whole.descend? path = some inner.expr ∧
    whole.Innermost path inner.parameter.text outer

theorem exists_hides_iff {program : Program} {root : Option Nat} {path : List Branch}
    {inner : FunctionNode} (hinner : program.at? root path = some inner.expr) :
    (∃ outer, program.Hides root path inner outer) ↔
      ∃ outer, ∃ around : FunctionNode, program.at? root outer = some around.expr ∧
        outer ++ [.body] <+: path ∧ around.parameter.text = inner.parameter.text := by
  obtain ⟨whole, hroot, hpath⟩ := at?_eq_some_iff.1 hinner
  constructor
  · rintro ⟨around, whole', hroot', _, outer, ⟨houter, hbody⟩, htext, _⟩
    exact ⟨outer, around, at?_eq_some_iff.2 ⟨whole', hroot', houter⟩, hbody, htext⟩
  · rintro ⟨outer, around, haround, hbody, htext⟩
    obtain ⟨whole', hroot', houter⟩ := at?_eq_some_iff.1 haround
    obtain rfl : whole = whole' := by simpa [hroot] using hroot'
    rcases whole.function?_scopeAt {} path inner.parameter.text with
      ⟨function, hinnermost, _⟩ | ⟨hunbound, _⟩
    · exact ⟨function, whole, hroot, hpath, hinnermost⟩
    · exact absurd htext (hunbound _ _ ⟨houter, hbody⟩)

/-- The shadowings of a program are those of its roots, each met in the scope of its root. -/
theorem mem_shadowings_iff_root {program : Program} {entry : Shadowing} :
    entry ∈ program.shadowings ↔ ∃ root whole, program.root? root = some whole ∧
      entry ∈ whole.shadowings (program.rootScope root) := by
  constructor
  · intro h
    rcases List.mem_append.1 h with h | h
    · obtain ⟨definition, hmem, hentry⟩ := List.mem_flatMap.1 h
      obtain ⟨index, hindex⟩ := List.mem_iff_getElem?.1 hmem
      exact ⟨some index, definition.expression, by simp [root?, hindex], hentry⟩
    · obtain ⟨whole, hmem, hentry⟩ := List.mem_flatMap.1 h
      exact ⟨none, whole, by simpa [root?] using hmem, hentry⟩
  · rintro ⟨root, whole, hroot, hentry⟩
    cases root with
    | none =>
      refine List.mem_append_right _ (List.mem_flatMap.2 ⟨whole, ?_, hentry⟩)
      simpa [root?] using hroot
    | some index =>
      obtain ⟨definition, hdefinition, rfl⟩ := Option.map_eq_some_iff.1 hroot
      exact List.mem_append_left _
        (List.mem_flatMap.2 ⟨definition, List.mem_of_getElem? hdefinition, hentry⟩)

/-- **The shadowings of a program are those by the rule.** -/
theorem mem_shadowings_iff {program : Program} {entry : Shadowing} :
    entry ∈ program.shadowings ↔
      ∃ root path inner outer, program.Hides root path inner outer ∧
        entry = inner.shadowing outer.id := by
  rw [mem_shadowings_iff_root]
  constructor
  · rintro ⟨root, whole, hroot, hentry⟩
    obtain ⟨path, inner, shadowed, hpath, hknown, rfl⟩ := Expr.mem_shadowings_iff.1 hentry
    rcases Expr.function?_scopeAt (program.rootScope root) whole path inner.parameter.text with
      ⟨outer, hinnermost, hlookup⟩ | ⟨_, hlookup⟩
    · obtain rfl : outer.id = shadowed := Option.some.inj (hlookup.symm.trans hknown)
      exact ⟨root, path, inner, outer, ⟨whole, hroot, hpath, hinnermost⟩, rfl⟩
    · rw [hlookup, function?_rootScope] at hknown
      cases hknown
  · rintro ⟨root, path, inner, outer, ⟨whole, hroot, hpath, hinnermost⟩, rfl⟩
    refine ⟨root, whole, hroot, Expr.mem_shadowings_iff.2 ⟨path, inner, outer.id, hpath, ?_, rfl⟩⟩
    rcases Expr.function?_scopeAt (program.rootScope root) whole path inner.parameter.text with
      ⟨other, hother, hlookup⟩ | ⟨hunbound, _⟩
    · rw [hlookup, hinnermost.unique hother]
    · exact absurd hunbound hinnermost.not_unbound

/-- **Every function of a program is the shadowing one of one entry at most, and the entries come in
the order of the functions.** -/
theorem shadowings_sublist (program : Program) :
    (program.shadowings.map (·.shadowing)).Sublist (program.functions.map (·.id)) := by
  simp only [shadowings, functions, expressions, List.flatMap_append, List.flatMap_map,
    List.map_append, List.map_flatMap]
  refine List.Sublist.append ?_ ?_
  · exact List.Sublist.flatMap_right _ fun definition _ =>
      definition.expression.shadowings_sublist {}
  · exact List.Sublist.flatMap_right _ fun whole _ => whole.shadowings_sublist program.scope

end Program

/-! ## Linked programs -/

/-- The functions of a linked program have ascending numbers, each after those inside it. -/
theorem Cursor.pairwise_functionsInsideOut_of_parse {cursor : Cursor} {program : LinkedProgram}
    (h : cursor.parse = .ok program) :
    program.functionsInsideOut.Pairwise fun first second => first.id.index < second.id.index := by
  obtain ⟨derivation, _, _, _, rfl⟩ := Cursor.parse_eq_ok_iff.1 h
  have hnumbers : (derivation.build.functionsInsideOut.map (·.id.index)).Pairwise (· < ·) := by
    rw [derivation.functionsInsideOut_build]
    exact List.pairwise_lt_range
  exact List.pairwise_map.1 hnumbers

/-- **A function has a higher number than those inside it.** -/
theorem Cursor.lt_of_encloses {cursor : Cursor} {program : LinkedProgram}
    (h : cursor.parse = .ok program) {root : Option Nat} {whole : Expr}
    (hroot : program.root? root = some whole) {path outer : List Branch}
    {inner around : FunctionNode} (haround : whole.Encloses path outer around)
    (hinner : whole.descend? path = some inner.expr) : inner.id.index < around.id.index := by
  have hwhole : whole.functionsInsideOut.Sublist program.functionsInsideOut :=
    List.sublist_flatten_of_mem
      (List.mem_map_of_mem (Program.mem_expressions_iff.2 ⟨root, hroot⟩))
  have hpair := (Cursor.pairwise_functionsInsideOut_of_parse h).sublist
    ((haround.sublist hinner).trans hwhole)
  simpa using hpair

namespace LinkedProgram.WellLinked

variable {program : LinkedProgram}

theorem mem_shadowings_iff (h : program.WellLinked) {entry : Shadowing} :
    entry ∈ program.table.shadowings ↔
      ∃ root path inner outer, program.Hides root path inner outer ∧
        entry = inner.shadowing outer.id := by
  rw [h.table_eq]
  exact Program.mem_shadowings_iff

/-- A function has an entry exactly if its parameter hides another at its place. -/
theorem exists_mem_shadowings_iff (h : program.WellLinked) {root : Option Nat}
    {path : List Branch} {inner : FunctionNode}
    (hinner : program.at? root path = some inner.expr) :
    (∃ entry ∈ program.table.shadowings, entry.shadowing = inner.id) ↔
      ∃ outer, program.Hides root path inner outer := by
  constructor
  · rintro ⟨entry, hmem, hid⟩
    obtain ⟨root', path', other, outer, hhides, rfl⟩ := h.mem_shadowings_iff.1 hmem
    obtain ⟨whole, hroot, hpath, _⟩ := id hhides
    have hother : program.at? root' path' = some other.expr :=
      Program.at?_eq_some_iff.2 ⟨whole, hroot, hpath⟩
    obtain ⟨rfl, rfl⟩ := Program.place_unique h.nodup_functions hother hinner hid
    obtain rfl : other = inner :=
      FunctionNode.expr_inj.1 (Option.some.inj (hother.symm.trans hinner))
    exact ⟨outer, hhides⟩
  · rintro ⟨outer, hhides⟩
    exact ⟨_, h.mem_shadowings_iff.2 ⟨root, path, inner, outer, hhides, rfl⟩, rfl⟩

/-- Of two functions of one parameter on one path the one further down has an entry. -/
theorem exists_mem_shadowings_of_prefix (h : program.WellLinked) {root : Option Nat}
    {shorter longer : List Branch} {around inner : FunctionNode} (hbegins : shorter <+: longer)
    (hne : shorter ≠ longer) (haround : program.at? root shorter = some around.expr)
    (hinner : program.at? root longer = some inner.expr)
    (htext : around.parameter.text = inner.parameter.text) :
    ∃ entry, entry ∈ program.table.shadowings := by
  obtain ⟨whole, hroot, hshorter⟩ := Program.at?_eq_some_iff.1 haround
  obtain ⟨whole', hroot', hlonger⟩ := Program.at?_eq_some_iff.1 hinner
  obtain rfl : whole = whole' := by simpa [hroot] using hroot'
  have hencloses := Expr.encloses_of_prefix hlonger hshorter hbegins hne
  have hhides := (Program.exists_hides_iff hinner).2 ⟨shorter, around, haround, hencloses.2, htext⟩
  obtain ⟨entry, hmem, _⟩ := (h.exists_mem_shadowings_iff hinner).2 hhides
  exact ⟨entry, hmem⟩

/-- **Some parameter has to be renamed exactly if a path leads through two functions of one
parameter.** -/
theorem needsRenaming_iff (h : program.WellLinked) :
    program.table.needsRenaming = true ↔
      ∃ root path node outer inner, ∃ first second : FunctionNode,
        program.at? root path = some node ∧ outer <+: path ∧ inner <+: path ∧ outer ≠ inner ∧
        program.at? root outer = some first.expr ∧ program.at? root inner = some second.expr ∧
        first.parameter.text = second.parameter.text := by
  rw [BindingTable.needsRenaming, Bool.not_eq_true', List.isEmpty_eq_false_iff_exists_mem]
  constructor
  · rintro ⟨entry, hmem⟩
    obtain ⟨root, path, inner, around, hhides, _⟩ := h.mem_shadowings_iff.1 hmem
    obtain ⟨whole, hroot, hpath, outer, ⟨houter, hbody⟩, htext, _⟩ := hhides
    have hplace : program.at? root path = some inner.expr :=
      Program.at?_eq_some_iff.2 ⟨whole, hroot, hpath⟩
    have hne : outer ≠ path := by
      rintro rfl
      exact absurd hbody.length_le (by simp)
    exact ⟨root, path, inner.expr, outer, path, around, inner, hplace,
      (List.prefix_append outer [.body]).trans hbody, List.prefix_rfl, hne,
      Program.at?_eq_some_iff.2 ⟨whole, hroot, houter⟩, hplace, htext⟩
  · rintro ⟨root, path, node, outer, inner, first, second, _, houter, hinner, hne, hfirst, hsecond,
      htext⟩
    rcases List.prefix_or_prefix_of_prefix houter hinner with hbegins | hbegins
    · exact h.exists_mem_shadowings_of_prefix hbegins hne hfirst hsecond htext
    · exact h.exists_mem_shadowings_of_prefix hbegins hne.symm hsecond hfirst htext.symm

end LinkedProgram.WellLinked

/-- **Shadowing is found exactly.** The entries of a linked program stand in the visiting order of
the shadowing functions, one for each at most. They are those by the rule: the parameter of a
function hides that of the innermost function around it with the same text, and a function has an
entry if there is such a function around. The shadowed function has the higher number. Wherever the
two stand, it is in one root expression, and the shadowing function is in the body of the shadowed
one — so neither functions beside each other nor those of different definitions shadow each other.
Renaming is needed if some path down from a root leads through two functions of one parameter. -/
theorem Cursor.shadowings_exact {cursor : Cursor} {program : LinkedProgram}
    (h : cursor.parse = .ok program) :
    ((program.table.shadowings.map (·.shadowing)).Sublist (program.functions.map (·.id)) ∧
      (program.functions.map (·.id)).Nodup) ∧
    (∀ entry, entry ∈ program.table.shadowings ↔
      ∃ root path inner outer, program.Hides root path inner outer ∧
        entry = inner.shadowing outer.id) ∧
    (∀ root path, ∀ inner : FunctionNode, program.at? root path = some inner.expr →
      ((∃ entry ∈ program.table.shadowings, entry.shadowing = inner.id) ↔
        ∃ outer, ∃ around : FunctionNode, program.at? root outer = some around.expr ∧
          outer ++ [.body] <+: path ∧ around.parameter.text = inner.parameter.text)) ∧
    (∀ entry ∈ program.table.shadowings, entry.shadowing.index < entry.shadowed.index ∧
      ∀ inner outer : FunctionNode, ∀ root root' path path',
        program.at? root path = some inner.expr → inner.id = entry.shadowing →
        program.at? root' path' = some outer.expr → outer.id = entry.shadowed →
        root' = root ∧ path' ++ [.body] <+: path) ∧
    (program.table.needsRenaming = true ↔
      ∃ root path node outer inner, ∃ first second : FunctionNode,
        program.at? root path = some node ∧ outer <+: path ∧ inner <+: path ∧ outer ≠ inner ∧
        program.at? root outer = some first.expr ∧ program.at? root inner = some second.expr ∧
        first.parameter.text = second.parameter.text) := by
  have hlinked := Cursor.wellLinked_of_parse h
  refine ⟨⟨?_, hlinked.nodup_functions⟩, fun entry => hlinked.mem_shadowings_iff, ?_, ?_,
    hlinked.needsRenaming_iff⟩
  · rw [hlinked.table_eq]
    exact program.shadowings_sublist
  · intro root path inner hinner
    rw [hlinked.exists_mem_shadowings_iff hinner, Program.exists_hides_iff hinner]
  · intro entry hmem
    obtain ⟨root, path, inner, around, ⟨whole, hroot, hpath, outer, hencloses, _⟩, rfl⟩ :=
      hlinked.mem_shadowings_iff.1 hmem
    refine ⟨Cursor.lt_of_encloses h hroot hencloses hpath, ?_⟩
    intro inner' around' root' root'' path' outer' hinner' hid haround' hid'
    have hinner : program.at? root path = some inner.expr :=
      Program.at?_eq_some_iff.2 ⟨whole, hroot, hpath⟩
    have haround : program.at? root outer = some around.expr :=
      Program.at?_eq_some_iff.2 ⟨whole, hroot, hencloses.1⟩
    obtain ⟨rfl, rfl⟩ := Program.place_unique hlinked.nodup_functions hinner' hinner hid
    obtain ⟨rfl, rfl⟩ := Program.place_unique hlinked.nodup_functions haround' haround hid'
    exact ⟨rfl, hencloses.2⟩

/-- In `λx.(λx.x λy.λx.y)` the outermost parameter is hidden twice, on both sides of the
application, and nothing else is. -/
theorem Cursor.shadowings_exact_of_two_sides :
    ∃ program : LinkedProgram,
      (Cursor.ofTokens
        [⟨.lambda, "λ", ⟨0, 2⟩⟩, ⟨.name, "x", ⟨2, 3⟩⟩, ⟨.dot, ".", ⟨3, 4⟩⟩,
          ⟨.openParen, "(", ⟨4, 5⟩⟩, ⟨.lambda, "λ", ⟨5, 7⟩⟩, ⟨.name, "x", ⟨7, 8⟩⟩,
          ⟨.dot, ".", ⟨8, 9⟩⟩, ⟨.name, "x", ⟨9, 10⟩⟩, ⟨.lambda, "λ", ⟨11, 13⟩⟩,
          ⟨.name, "y", ⟨13, 14⟩⟩, ⟨.dot, ".", ⟨14, 15⟩⟩, ⟨.lambda, "λ", ⟨15, 17⟩⟩,
          ⟨.name, "x", ⟨17, 18⟩⟩, ⟨.dot, ".", ⟨18, 19⟩⟩, ⟨.name, "y", ⟨19, 20⟩⟩,
          ⟨.closeParen, ")", ⟨20, 21⟩⟩]).parse = .ok program ∧
      program.table.shadowings =
        [⟨"x", ⟨3⟩, ⟨0⟩, ⟨7, 8⟩⟩, ⟨"x", ⟨3⟩, ⟨1⟩, ⟨17, 18⟩⟩] ∧
      (∃ entry ∈ program.table.shadowings, entry.shadowing = ⟨1⟩) ∧
      program.table.needsRenaming = true := by
  let derivation : ProgramDerivation :=
    { definitions := []
      expression := some (.function ⟨"λ", ⟨0, 2⟩⟩ ⟨"x", ⟨2, 3⟩⟩ ⟨".", ⟨3, 4⟩⟩
        (.application ⟨"(", ⟨4, 5⟩⟩
          (.function ⟨"λ", ⟨5, 7⟩⟩ ⟨"x", ⟨7, 8⟩⟩ ⟨".", ⟨8, 9⟩⟩ (.name ⟨"x", ⟨9, 10⟩⟩))
          (.function ⟨"λ", ⟨11, 13⟩⟩ ⟨"y", ⟨13, 14⟩⟩ ⟨".", ⟨14, 15⟩⟩
            (.function ⟨"λ", ⟨15, 17⟩⟩ ⟨"x", ⟨17, 18⟩⟩ ⟨".", ⟨18, 19⟩⟩ (.name ⟨"y", ⟨19, 20⟩⟩)))
          ⟨")", ⟨20, 21⟩⟩)) }
  have hheights : ∀ expression ∈ derivation.expressions, expression.height ≤ maxNesting := by
    simp [derivation, ProgramDerivation.expressions, ExprDerivation.height, maxNesting]
  have h : (Cursor.ofTokens derivation.tokens).parse =
      .ok ⟨derivation.build, derivation.build.table⟩ :=
    Cursor.parse_eq_ok_iff.2 ⟨derivation, rfl, hheights, by simp [derivation], rfl⟩
  obtain ⟨_, _, hentries, _, hrenaming⟩ := Cursor.shadowings_exact h
  refine ⟨_, h, rfl, ?_, ?_⟩
  · exact (hentries none [.body, .argument, .body] ⟨⟨1⟩, ⟨⟨4⟩, "x", ⟨17, 18⟩⟩, _, _⟩ rfl).2
      ⟨[], ⟨⟨3⟩, ⟨⟨0⟩, "x", ⟨2, 3⟩⟩, _, _⟩, rfl, by decide, rfl⟩
  · exact hrenaming.2 ⟨none, [.body, .callee], _, [], [.body, .callee],
      ⟨⟨3⟩, ⟨⟨0⟩, "x", ⟨2, 3⟩⟩, _, _⟩, ⟨⟨0⟩, ⟨⟨1⟩, "x", ⟨7, 8⟩⟩, _, _⟩, rfl, by decide, by decide,
      by decide, rfl, rfl, rfl⟩

end ScopedLambda
