import ScopedLambda.Proofs.RoundTrip
import ScopedLambda.Proofs.ShadowedParameters

/-!
# Capture

To apply a function is to put the argument where the parameter is used. A use in the argument is
captured if it comes to stand, by that, inside a function of the body that has its text as
parameter. If no parameter of a program hides another, what a function binds is never captured. What
no function binds still may be: that parameters do not hide each other says nothing about names that
are free, or that stand for definitions.

* `LinkedProgram.Captures` — an application, a function in the body around a use of the parameter,
  and a use in the argument that would be captured by it.

Principal results: `prefix_argument_cases` — a function around a place in an argument is in the
argument or around the application; `Cursor.captured_refers_to_no_function` — what can be captured
in a program that needs no renaming; `Cursor.captures_without_renaming` — that something can.
-/

set_option autoImplicit false

namespace ScopedLambda

/-- At `path` a function is applied to an argument. In its body `captor` is around a use of the
parameter; in the argument `captured` refers to no function of the argument, and its text is the
parameter of `captor`. -/
inductive LinkedProgram.Captures (program : LinkedProgram) (root : Option Nat) (path : List Branch)
    (captor : FunctionNode) (captured : Name) : Prop where
  | intro {callee : FunctionNode} {argument : Expr} {span : Span} {use : Name}
    {down outer way : List Branch}
    (happlication : program.at? root path = some (.app callee.expr argument span))
    (huse : callee.body.descend? down = some (.var use))
    (hbound : program.table.binderOf? use.id = some (.function callee.id))
    (hcaptor : callee.body.Encloses down outer captor)
    (hcaptured : argument.descend? way = some (.var captured))
    (houtside : ∀ function ∈ argument.functions,
      program.table.binderOf? captured.id ≠ some (.function function.id))
    (htext : captured.text = captor.parameter.text) :
    Captures program root path captor captured

/-- A function around a place in an argument stands in the argument or around the application. -/
theorem prefix_argument_cases {outer path way : List Branch}
    (h : outer ++ [.body] <+: path ++ .argument :: way) :
    (∃ rest, outer = path ++ .argument :: rest) ∨ outer ++ [.body] <+: path := by
  rcases List.prefix_or_prefix_of_prefix h (List.prefix_append path _) with hshort | hlong
  · exact .inr hshort
  · obtain ⟨rest, hrest⟩ := hlong
    rcases List.eq_nil_or_concat rest with rfl | ⟨init, last, rfl⟩
    · rw [List.append_nil] at hrest
      exact .inr ⟨[], by rw [hrest, List.append_nil]⟩
    · -- The way on from the application begins with its argument.
      rw [List.concat_eq_append, ← List.append_assoc] at hrest
      obtain ⟨rfl, hlast⟩ := List.append_inj' hrest rfl
      rw [List.append_assoc, List.prefix_append_right_inj] at h
      cases init with
      | nil => simp at h
      | cons branch init =>
        obtain ⟨rfl, _⟩ := List.cons_prefix_cons.1 h
        exact .inl ⟨init, rfl⟩

namespace LinkedProgram

variable {program : LinkedProgram} {root : Option Nat}

/-- Below an application a path goes on in the callee or in the argument. -/
theorem at?_application {path way : List Branch} {callee argument : Expr} {span : Span}
    (h : program.at? root path = some (.app callee argument span)) :
    program.at? root (path ++ .callee :: way) = callee.descend? way ∧
      program.at? root (path ++ .argument :: way) = argument.descend? way := by
  obtain ⟨whole, hroot, hpath⟩ := Program.at?_eq_some_iff.1 h
  constructor <;>
    rw [Program.at?, hroot, Option.bind_some, Expr.descend?_append, hpath, Option.bind_some] <;> rfl

/-- What is captured stands in the argument. -/
theorem Captures.exists_place {path : List Branch} {captor : FunctionNode} {captured : Name}
    (h : program.Captures root path captor captured) :
    ∃ way, program.at? root (path ++ .argument :: way) = some (.var captured) := by
  obtain @⟨_, _, _, _, _, _, way, happlication, _, _, _, hcaptured, _, _⟩ := h
  exact ⟨way, by rw [(at?_application happlication).2, hcaptured]⟩

/-- A use is free, or it refers to a definition from the trailing expression, or to a function. -/
theorem WellLinked.use_cases (h : program.WellLinked) {path : List Branch} {use : Name}
    (huse : program.at? root path = some (.var use)) :
    program.table.isFree use.id = true ∨
      (root = none ∧ ∃ index, program.table.binderOf? use.id = some (.definition index)) ∨
      ∃ id, program.table.binderOf? use.id = some (.function id) := by
  obtain ⟨whole, hroot, _⟩ := Program.at?_eq_some_iff.1 huse
  have hrefers := Program.refers_binder?_scopeAt h.nodup_definitions hroot path use.text
  have hlookup := (h.lookup_eq_some_iff huse _).2 hrefers
  unfold BindingTable.isFree BindingTable.binderOf?
  rw [hlookup]
  generalize (whole.scopeAt (program.rootScope root) path).binder? use.text = binder at hrefers
  cases hrefers with
  | free => exact .inl (by simp)
  | definition _ _ htrailing _ _ => exact .inr (.inl ⟨htrailing, _, rfl⟩)
  | parameter => exact .inr (.inr ⟨_, rfl⟩)

/-- If no parameter hides another, a function has another parameter than those around it. -/
theorem WellLinked.parameter_ne_of_prefix (h : program.WellLinked)
    (hnot : program.table.needsRenaming = false) {outer inner : List Branch}
    {around function : FunctionNode} (haround : program.at? root outer = some around.expr)
    (hfunction : program.at? root inner = some function.expr) (hbody : outer ++ [.body] <+: inner) :
    around.parameter.text ≠ function.parameter.text := by
  intro htext
  have hbegins : outer <+: inner := (List.prefix_append outer [.body]).trans hbody
  have hne : outer ≠ inner := by
    rintro rfl
    exact absurd hbody.length_le (by simp)
  obtain ⟨entry, hmem⟩ :=
    h.exists_mem_shadowings_of_prefix hbegins hne haround hfunction htext
  rw [BindingTable.needsRenaming, Bool.not_eq_false', List.isEmpty_iff] at hnot
  simp [hnot] at hmem

/-- **If no parameter hides another, no function binds what is captured.** A function that binds it
is not in the argument, so it is around the application, and with that around the captor. -/
theorem WellLinked.not_parameter_of_captures (h : program.WellLinked)
    (hnot : program.table.needsRenaming = false) {path : List Branch} {captor : FunctionNode}
    {captured : Name} (hcaptures : program.Captures root path captor captured) (id : FunctionId) :
    program.table.binderOf? captured.id ≠ some (.function id) := by
  obtain @⟨callee, argument, span, use, down, outer, way, happlication, _, _, ⟨hcaptor, _⟩,
    hcaptured, houtside, htext⟩ := hcaptures
  have hplace : program.at? root (path ++ .argument :: way) = some (.var captured) := by
    rw [(at?_application happlication).2, hcaptured]
  have hcaptor' : program.at? root (path ++ .callee :: .body :: outer) = some captor.expr := by
    rw [(at?_application happlication).1]
    exact hcaptor
  intro hbinder
  cases h.refers_of_binderOf? hplace hbinder with
  | @parameter whole function hroot hinnermost =>
    obtain ⟨stem, ⟨hstem, hbody⟩, hsame, _⟩ := hinnermost
    have hfunction : program.at? root stem = some function.expr :=
      Program.at?_eq_some_iff.2 ⟨whole, hroot, hstem⟩
    rcases prefix_argument_cases hbody with ⟨rest, rfl⟩ | haround
    · rw [(at?_application happlication).2] at hfunction
      exact houtside function (Expr.mem_functions_iff.2 ⟨rest, hfunction⟩) hbinder
    · refine h.parameter_ne_of_prefix hnot hfunction hcaptor' ?_ (hsame.trans htext)
      exact haround.trans (List.prefix_append _ _)

end LinkedProgram

/-- **What is captured in a program that needs no renaming, no function binds.** If no parameter of
a linked program hides another and the argument of an application is put where the parameter is
used, then every use in the argument that is captured by a function of the body — a function around
that place, with the text of the use as parameter — is free in the program, or stands in the
trailing expression for a definition. So an argument in which functions bind every name may be put
there as it is. -/
theorem Cursor.captured_refers_to_no_function {cursor : Cursor} {program : LinkedProgram}
    (h : cursor.parse = .ok program) (hnot : program.table.needsRenaming = false)
    {root : Option Nat} {path : List Branch} {captor : FunctionNode} {captured : Name}
    (hcaptures : program.Captures root path captor captured) :
    program.table.isFree captured.id = true ∨
      root = none ∧ ∃ index, program.table.binderOf? captured.id = some (.definition index) := by
  have hlinked := Cursor.wellLinked_of_parse h
  obtain ⟨way, hplace⟩ := hcaptures.exists_place
  rcases hlinked.use_cases hplace with hfree | hdefinition | ⟨id, hfunction⟩
  · exact .inl hfree
  · exact .inr hdefinition
  · exact absurd hfunction (hlinked.not_parameter_of_captures hnot hcaptures id)

/-- In `(λx.λy.x y)` no parameter hides another, and the free `y` is captured by `λy.x`. -/
theorem exists_captures_of_free_argument :
    ∃ (program : LinkedProgram) (captor : FunctionNode) (captured : Name),
      parse "(λx.λy.x y)" = .ok program ∧ program.table.needsRenaming = false ∧
      captured.text = "y" ∧ program.Captures none [] captor captured := by
  let derivation : ProgramDerivation :=
    { definitions := []
      expression := some (.application ⟨"(", ⟨0, 1⟩⟩
        (.function ⟨"λ", ⟨1, 3⟩⟩ ⟨"x", ⟨3, 4⟩⟩ ⟨".", ⟨4, 5⟩⟩
          (.function ⟨"λ", ⟨5, 7⟩⟩ ⟨"y", ⟨7, 8⟩⟩ ⟨".", ⟨8, 9⟩⟩ (.name ⟨"x", ⟨9, 10⟩⟩)))
        (.name ⟨"y", ⟨11, 12⟩⟩) ⟨")", ⟨12, 13⟩⟩) }
  have hscan : scan "(λx.λy.x y)" = .ok derivation.tokens := by decide +kernel
  have hheights : ∀ expression ∈ derivation.expressions, expression.height ≤ maxNesting := by
    simp [derivation, ProgramDerivation.expressions, ExprDerivation.height, maxNesting]
  have hparse : (Cursor.ofTokens derivation.tokens).parse =
      .ok ⟨derivation.build, derivation.build.table⟩ :=
    Cursor.parse_eq_ok_iff.2 ⟨derivation, rfl, hheights, by simp [derivation], rfl⟩
  refine ⟨_, ⟨⟨0⟩, ⟨⟨1⟩, "y", ⟨7, 8⟩⟩, .var ⟨⟨2⟩, "x", ⟨9, 10⟩⟩, ⟨5, 10⟩⟩, ⟨⟨3⟩, "y", ⟨11, 12⟩⟩,
    (parse_eq_of_scan hscan).trans hparse, rfl, rfl, ?_⟩
  -- The application is the whole, the use of `x` is the body of `λy.x`, and that is the body of
  -- the callee; the argument is `y` itself.
  refine @LinkedProgram.Captures.intro _ _ _ _ _ ⟨⟨1⟩, ⟨⟨0⟩, "x", ⟨3, 4⟩⟩, _, ⟨1, 10⟩⟩ _ _ _ [.body]
    [] [] rfl rfl rfl ⟨rfl, [], rfl⟩ rfl ?_ rfl
  intro function hmem
  exact absurd hmem List.not_mem_nil

/-- In `(λx.λy.x y)` the captured `y` is free. -/
theorem Cursor.captured_refers_to_no_function_of_free_argument :
    ∃ (program : LinkedProgram) (captor : FunctionNode) (captured : Name),
      ScopedLambda.parse "(λx.λy.x y)" = .ok program ∧ program.table.needsRenaming = false ∧
      program.Captures none [] captor captured ∧
      (program.table.isFree captured.id = true ∨
        (none : Option Nat) = none ∧
          ∃ index, program.table.binderOf? captured.id = some (.definition index)) := by
  obtain ⟨program, captor, captured, hparse, hnot, _, hcaptures⟩ := exists_captures_of_free_argument
  obtain ⟨tokens, _, h⟩ := exists_scan_of_parse hparse
  exact ⟨program, captor, captured, hparse, hnot, hcaptures,
    Cursor.captured_refers_to_no_function h hnot hcaptures⟩

/-- **That no parameter hides another does not rule out capture.** -/
theorem Cursor.captures_without_renaming :
    ¬ ∀ (cursor : Cursor) (program : LinkedProgram), cursor.parse = .ok program →
      program.table.needsRenaming = false →
      ∀ root path captor captured, ¬ program.Captures root path captor captured := by
  intro hnone
  obtain ⟨program, captor, captured, hparse, hnot, _, hcaptures⟩ := exists_captures_of_free_argument
  obtain ⟨tokens, _, h⟩ := exists_scan_of_parse hparse
  exact hnone (.ofTokens tokens) program h hnot none [] captor captured hcaptures

end ScopedLambda
