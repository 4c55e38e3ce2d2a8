import Mathlib.Data.List.Nodup
import ScopedLambda.Program

/-!
# Places in a tree

A place in a program is a root expression together with a path down from it. The lists of uses and
of functions hold exactly what stands at some place, and where no identity occurs twice in such a
list, an identity determines the place.

* `FunctionNode.expr` — a function as an expression.
* `Program.at?` — what stands at a place of a program.

Principal results: `Program.mem_uses_iff`, `Program.mem_functions_iff` — a list of what stands at
the places; `Program.place_unique` — functions of one identity stand at one place.
-/

set_option autoImplicit false

namespace ScopedLambda

/-- A function as an expression. -/
def FunctionNode.expr (function : FunctionNode) : Expr :=
  .lam function.id function.parameter function.body function.span

theorem FunctionNode.expr_inj {first second : FunctionNode} :
    first.expr = second.expr ↔ first = second := by
  obtain ⟨id, parameter, body, span⟩ := first
  obtain ⟨id', parameter', body', span'⟩ := second
  simp [expr]

/-! ## Expressions -/

namespace Expr

@[simp] theorem descend?_nil (expr : Expr) : expr.descend? [] = some expr := rfl

@[simp] theorem descend?_var_cons (name : Name) (branch : Branch) (path : List Branch) :
    (Expr.var name).descend? (branch :: path) = none := rfl

@[simp] theorem descend?_lam_body (id : FunctionId) (parameter : Name) (body : Expr) (span : Span)
    (path : List Branch) :
    (Expr.lam id parameter body span).descend? (.body :: path) = body.descend? path := rfl

@[simp] theorem descend?_lam_callee (id : FunctionId) (parameter : Name) (body : Expr)
    (span : Span) (path : List Branch) :
    (Expr.lam id parameter body span).descend? (.callee :: path) = none := rfl

@[simp] theorem descend?_lam_argument (id : FunctionId) (parameter : Name) (body : Expr)
    (span : Span) (path : List Branch) :
    (Expr.lam id parameter body span).descend? (.argument :: path) = none := rfl

@[simp] theorem descend?_app_body (callee argument : Expr) (span : Span) (path : List Branch) :
    (Expr.app callee argument span).descend? (.body :: path) = none := rfl

@[simp] theorem descend?_app_callee (callee argument : Expr) (span : Span) (path : List Branch) :
    (Expr.app callee argument span).descend? (.callee :: path) = callee.descend? path := rfl

@[simp] theorem descend?_app_argument (callee argument : Expr) (span : Span) (path : List Branch) :
    (Expr.app callee argument span).descend? (.argument :: path) = argument.descend? path := rfl

/-- A part one step down is the body of a function or a side of an application. -/
theorem child?_eq_some {expr child : Expr} {branch : Branch} (h : expr.child? branch = some child) :
    (∃ id parameter span, expr = .lam id parameter child span) ∨
      (∃ argument span, expr = .app child argument span) ∨
      (∃ callee span, expr = .app callee child span) := by
  unfold child? at h
  split at h
  · cases h
    exact .inl ⟨_, _, _, rfl⟩
  · cases h
    exact .inr (.inl ⟨_, _, rfl⟩)
  · cases h
    exact .inr (.inr ⟨_, _, rfl⟩)
  · cases h

/-- An expression is higher than what stands in it by the length of the way down, at least. -/
theorem length_add_height_le {expr part : Expr} {path : List Branch}
    (h : expr.descend? path = some part) : path.length + part.height ≤ expr.height := by
  induction path generalizing expr with
  | nil =>
    obtain rfl : expr = part := by simpa using h
    simp
  | cons branch path ih =>
    obtain ⟨child, hchild, h⟩ := Option.bind_eq_some_iff.1 h
    have hle : path.length + part.height ≤ child.height := ih h
    have hlt : child.height < expr.height := by
      rcases child?_eq_some hchild with ⟨id, parameter, span, rfl⟩ | ⟨argument, span, rfl⟩ |
        ⟨callee, span, rfl⟩ <;> simp only [height] <;> omega
    rw [List.length_cons]
    omega

/-- The uses of an expression are the names that stand somewhere in it. -/
theorem mem_uses_iff {expr : Expr} {use : Name} :
    use ∈ expr.uses ↔ ∃ path, expr.descend? path = some (.var use) := by
  constructor
  · intro h
    induction expr with
    | var name =>
      obtain rfl : use = name := by simpa [uses] using h
      exact ⟨[], rfl⟩
    | lam id parameter body span ih =>
      obtain ⟨path, hpath⟩ := ih h
      exact ⟨.body :: path, hpath⟩
    | app callee argument span ihc iha =>
      rcases List.mem_append.1 h with h | h
      · obtain ⟨path, hpath⟩ := ihc h
        exact ⟨.callee :: path, hpath⟩
      · obtain ⟨path, hpath⟩ := iha h
        exact ⟨.argument :: path, hpath⟩
  · rintro ⟨path, h⟩
    induction path generalizing expr with
    | nil =>
      obtain rfl : expr = .var use := by simpa using h
      simp [uses]
    | cons branch path ih =>
      obtain ⟨child, hchild, h⟩ := Option.bind_eq_some_iff.1 h
      have hmem : use ∈ child.uses := ih h
      rcases child?_eq_some hchild with ⟨id, parameter, span, rfl⟩ | ⟨argument, span, rfl⟩ |
        ⟨callee, span, rfl⟩
      · exact hmem
      · exact List.mem_append_left _ hmem
      · exact List.mem_append_right _ hmem

/-- The functions of an expression are those that stand somewhere in it. -/
theorem mem_functions_iff {expr : Expr} {function : FunctionNode} :
    function ∈ expr.functions ↔ ∃ path, expr.descend? path = some function.expr := by
  constructor
  · intro h
    induction expr with
    | var name => simp [functions] at h
    | lam id parameter body span ih =>
      rcases List.mem_cons.1 h with rfl | h
      · exact ⟨[], rfl⟩
      · obtain ⟨path, hpath⟩ := ih h
        exact ⟨.body :: path, hpath⟩
    | app callee argument span ihc iha =>
      rcases List.mem_append.1 h with h | h
      · obtain ⟨path, hpath⟩ := ihc h
        exact ⟨.callee :: path, hpath⟩
      · obtain ⟨path, hpath⟩ := iha h
        exact ⟨.argument :: path, hpath⟩
  · rintro ⟨path, h⟩
    induction path generalizing expr with
    | nil =>
      obtain rfl : expr = function.expr := by simpa using h
      simp [functions, FunctionNode.expr]
    | cons branch path ih =>
      obtain ⟨child, hchild, h⟩ := Option.bind_eq_some_iff.1 h
      have hmem : function ∈ child.functions := ih h
      rcases child?_eq_some hchild with ⟨id, parameter, span, rfl⟩ | ⟨argument, span, rfl⟩ |
        ⟨callee, span, rfl⟩
      · exact List.mem_cons_of_mem _ hmem
      · exact List.mem_append_left _ hmem
      · exact List.mem_append_right _ hmem

/-- If no identity occurs twice, functions of one identity stand at the end of one path. -/
theorem path_unique {expr : Expr} (hids : (expr.functions.map (·.id)).Nodup)
    {first second : FunctionNode} {path path' : List Branch}
    (hfirst : expr.descend? path = some first.expr)
    (hsecond : expr.descend? path' = some second.expr) (hid : first.id = second.id) :
    path = path' := by
  have hids_mem {inner : Expr} {function : FunctionNode} {down : List Branch}
      (h : inner.descend? down = some function.expr) :
      function.id ∈ inner.functions.map (·.id) :=
    List.mem_map_of_mem (mem_functions_iff.2 ⟨down, h⟩)
  induction expr generalizing path path' with
  | var name => cases path <;> simp [FunctionNode.expr] at hfirst
  | lam id parameter body span ih =>
    simp only [functions, List.map_cons, List.nodup_cons] at hids
    have hself {function : FunctionNode}
        (h : (Expr.lam id parameter body span).descend? [] = some function.expr) :
        id = function.id := by
      simp only [descend?_nil, FunctionNode.expr, Option.some.injEq, Expr.lam.injEq] at h
      exact h.1
    cases path with
    | nil =>
      cases path' with
      | nil => rfl
      | cons branch' down' =>
        cases branch' with
        | body =>
          have hbelow : second.id ∈ body.functions.map (·.id) := hids_mem hsecond
          rw [← hid, ← hself hfirst] at hbelow
          exact absurd hbelow hids.1
        | callee | argument => simp at hsecond
    | cons branch down =>
      cases branch with
      | body =>
        cases path' with
        | nil =>
          have hbelow : first.id ∈ body.functions.map (·.id) := hids_mem hfirst
          rw [hid, ← hself hsecond] at hbelow
          exact absurd hbelow hids.1
        | cons branch' down' =>
          cases branch' with
          | body => rw [ih hids.2 hfirst hsecond]
          | callee | argument => simp at hsecond
      | callee | argument => simp at hfirst
  | app callee argument span ihc iha =>
    simp only [functions, List.map_append, List.nodup_append] at hids
    obtain ⟨hcallee, hargument, hdisjoint⟩ := hids
    cases path with
    | nil => simp [FunctionNode.expr] at hfirst
    | cons branch down =>
      cases path' with
      | nil => simp [FunctionNode.expr] at hsecond
      | cons branch' down' =>
        cases branch with
        | body => simp at hfirst
        | callee =>
          cases branch' with
          | body => simp at hsecond
          | callee => rw [ihc hcallee hfirst hsecond]
          | argument => exact absurd hid (hdisjoint _ (hids_mem hfirst) _ (hids_mem hsecond))
        | argument =>
          cases branch' with
          | body => simp at hsecond
          | callee => exact absurd hid.symm (hdisjoint _ (hids_mem hsecond) _ (hids_mem hfirst))
          | argument => rw [iha hargument hfirst hsecond]

end Expr

/-! ## Programs -/

namespace Program

/-- What stands at the end of a path down from a root expression. -/
def at? (program : Program) (root : Option Nat) (path : List Branch) : Option Expr :=
  (program.root? root).bind (·.descend? path)

theorem at?_eq_some_iff {program : Program} {root : Option Nat} {path : List Branch} {expr : Expr} :
    program.at? root path = some expr ↔
      ∃ whole, program.root? root = some whole ∧ whole.descend? path = some expr :=
  Option.bind_eq_some_iff

/-- The roots of a program are its expressions, the trailing one last. -/
theorem root?_eq_getElem? {program : Program} {root : Option Nat} {whole : Expr}
    (h : program.root? root = some whole) :
    program.expressions[root.getD program.definitions.length]? = some whole := by
  cases root with
  | none => simp_all [root?, expressions]
  | some index =>
    obtain ⟨definition, hdefinition, rfl⟩ := Option.map_eq_some_iff.1 h
    obtain ⟨hlt, rfl⟩ := List.getElem?_eq_some_iff.1 hdefinition
    simp [expressions, List.getElem?_append_left, hlt]

theorem mem_expressions_iff {program : Program} {whole : Expr} :
    whole ∈ program.expressions ↔ ∃ root, program.root? root = some whole := by
  constructor
  · intro h
    rcases List.mem_append.1 h with h | h
    · obtain ⟨definition, hmem, rfl⟩ := List.mem_map.1 h
      obtain ⟨index, hindex⟩ := List.mem_iff_getElem?.1 hmem
      exact ⟨some index, by simp [root?, hindex]⟩
    · exact ⟨none, by simpa [root?] using h⟩
  · rintro ⟨root, h⟩
    exact List.mem_of_getElem? (root?_eq_getElem? h)

/-- **The uses of a program are the names that stand somewhere in it.** -/
theorem mem_uses_iff {program : Program} {use : Name} :
    use ∈ program.uses ↔ ∃ root path, program.at? root path = some (.var use) := by
  simp only [uses, List.mem_flatMap, mem_expressions_iff, Expr.mem_uses_iff, at?_eq_some_iff]
  exact ⟨fun ⟨whole, ⟨root, hroot⟩, path, hpath⟩ => ⟨root, path, whole, hroot, hpath⟩,
    fun ⟨root, path, whole, hroot, hpath⟩ => ⟨whole, ⟨root, hroot⟩, path, hpath⟩⟩

/-- **The functions of a program are those that stand somewhere in it.** -/
theorem mem_functions_iff {program : Program} {function : FunctionNode} :
    function ∈ program.functions ↔ ∃ root path, program.at? root path = some function.expr := by
  simp only [functions, List.mem_flatMap, mem_expressions_iff, Expr.mem_functions_iff,
    at?_eq_some_iff]
  exact ⟨fun ⟨whole, ⟨root, hroot⟩, path, hpath⟩ => ⟨root, path, whole, hroot, hpath⟩,
    fun ⟨root, path, whole, hroot, hpath⟩ => ⟨whole, ⟨root, hroot⟩, path, hpath⟩⟩

/-- Different roots are different entries of the list of expressions. -/
theorem root_eq_of_getD_eq {program : Program} {first second : Option Nat} {whole whole' : Expr}
    (hfirst : program.root? first = some whole) (hsecond : program.root? second = some whole')
    (h : first.getD program.definitions.length = second.getD program.definitions.length) :
    first = second := by
  have hlt {index : Nat} {inner : Expr} (h : program.root? (some index) = some inner) :
      index < program.definitions.length := by
    obtain ⟨definition, hdefinition, _⟩ := Option.map_eq_some_iff.1 h
    exact (List.getElem?_eq_some_iff.1 hdefinition).1
  cases first with
  | none =>
    cases second with
    | none => rfl
    | some index => exact absurd h.symm (Nat.ne_of_lt (hlt hsecond))
  | some index =>
    cases second with
    | none => exact absurd h (Nat.ne_of_lt (hlt hfirst))
    | some index' => exact congrArg some h

/-- **If no identity occurs twice, functions of one identity stand at one place.** -/
theorem place_unique {program : Program} (hids : (program.functions.map (·.id)).Nodup)
    {first second : FunctionNode} {root root' : Option Nat} {path path' : List Branch}
    (hfirst : program.at? root path = some first.expr)
    (hsecond : program.at? root' path' = some second.expr) (hid : first.id = second.id) :
    root = root' ∧ path = path' := by
  obtain ⟨whole, hroot, hpath⟩ := at?_eq_some_iff.1 hfirst
  obtain ⟨whole', hroot', hpath'⟩ := at?_eq_some_iff.1 hsecond
  rw [functions, List.map_flatMap, List.nodup_flatMap] at hids
  obtain ⟨hinside, hacross⟩ := hids
  have hget := root?_eq_getElem? hroot
  have hget' := root?_eq_getElem? hroot'
  have hmem : first.id ∈ whole.functions.map (·.id) :=
    List.mem_map_of_mem (Expr.mem_functions_iff.2 ⟨path, hpath⟩)
  have hmem' : first.id ∈ whole'.functions.map (·.id) :=
    hid ▸ List.mem_map_of_mem (Expr.mem_functions_iff.2 ⟨path', hpath'⟩)
  -- Two roots that hold the identity are one entry of the list of expressions.
  have hindex : root.getD program.definitions.length = root'.getD program.definitions.length := by
    obtain ⟨hlt, hentry⟩ := List.getElem?_eq_some_iff.1 hget
    obtain ⟨hlt', hentry'⟩ := List.getElem?_eq_some_iff.1 hget'
    rw [List.pairwise_iff_getElem] at hacross
    rcases Nat.lt_trichotomy (root.getD program.definitions.length)
      (root'.getD program.definitions.length) with h | h | h
    · have hdisjoint := List.disjoint_left.1 (hacross _ _ hlt hlt' h)
      rw [hentry, hentry'] at hdisjoint
      exact absurd hmem' (hdisjoint hmem)
    · exact h
    · have hdisjoint := List.disjoint_left.1 (hacross _ _ hlt' hlt h)
      rw [hentry, hentry'] at hdisjoint
      exact absurd hmem (hdisjoint hmem')
  obtain rfl := root_eq_of_getD_eq hroot hroot' hindex
  obtain rfl : whole = whole' := by simpa [hroot] using hroot'
  exact ⟨rfl, Expr.path_unique (hinside whole (List.mem_of_getElem? hget)) hpath hpath' hid⟩

end Program

end ScopedLambda
