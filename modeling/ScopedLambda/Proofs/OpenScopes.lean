import Mathlib.Data.List.Nodup
import ScopedLambda.Proofs.Walk

/-!
# Open scopes

A walk keeps the scopes it is inside of as a stack. Where it needs the innermost one and none is
open, it goes on in an empty scope, and a definition that is to be made known is forgotten. Nobody
would notice, so the walk is carried out here once more in a strict way: it comes to nothing as soon
as a scope is needed that is not there.

* `Linking.current?`, `leave?`, `define?` — the steps that need an open scope.
* `Linking.linkExpr?`, `linkDefinitions?`, `Program.link?` — the strict walk.
* `Linking.linkUnlessKnown` — the walk through one definition, with what becomes of it.
* `Linking.Knows` — the program's scope alone is open, and knows some definitions.

Principal results: `linkExpr?_eq_some_iff`, `linkUnlessKnown?_eq_some_iff` — the strict walk comes
to what the walk comes to, if any scope is open at the beginning; `Program.link?_eq` — over a
program it always does; `knows_of_linkDefinitions` — what is open after some definitions;
`scopes_balanced` — all of it.
-/

set_option autoImplicit false

namespace ScopedLambda

/-! ## The strict walk -/

namespace Linking

/-- The walk before anything is walked through: only the scope of the program is open. -/
def opened : Linking := { scopes := [{}] }

/-- The innermost scope, if one is open. -/
def current? (linking : Linking) : Option Scope := linking.scopes.head?

/-- Closes the innermost scope, if one is open. -/
def leave? (linking : Linking) : Option Linking := linking.current?.map fun _ => linking.leave

/-- Makes a definition known to the innermost scope, if one is open. -/
def define? (linking : Linking) (text : String) (index : Nat) : Option Linking :=
  linking.current?.map fun _ => linking.define text index

/-- Links the uses in an expression for as long as there is a scope where one is needed. -/
def linkExpr? (linking : Linking) : Expr → Option Linking
  | .var name => linking.current?.map fun _ => linking.linkName name
  | .lam id parameter body _ => do
    let scope ← linking.current?
    let inner := (linking.noteParameter id parameter).enter (scope.bind parameter.text id)
    let walked ← inner.linkExpr? body
    walked.leave?
  | .app callee argument _ => do
    let scope ← linking.current?
    let called ← (linking.enter scope).linkExpr? callee
    let walked ← called.linkExpr? argument
    walked.leave?

/-- Walks through a definition in an empty scope, unless its name is known already; then the name is
returned. -/
def linkUnlessKnown (linking : Linking) (definition : Definition) : Linking × Option Name :=
  if (linking.current.definition? definition.name.text).isSome then
    (linking, some definition.name)
  else
    (((linking.enter {}).linkExpr definition.expression).leave, none)

/-- Walks through a definition in the strict way. -/
def linkUnlessKnown? (linking : Linking) (definition : Definition) :
    Option (Linking × Option Name) := do
  let scope ← linking.current?
  if (scope.definition? definition.name.text).isSome then
    return (linking, some definition.name)
  else
    let walked ← (linking.enter {}).linkExpr? definition.expression
    return (← walked.leave?, none)

/-- Links definitions in the strict way. -/
def linkDefinitions? (linking : Linking) (index : Nat) :
    List Definition → Option (Linking × Option Name)
  | [] => some (linking, none)
  | definition :: rest => do
    match ← linking.linkUnlessKnown? definition with
    | (walked, some name) => return (walked, some name)
    | (walked, none) =>
      let known ← walked.define? definition.name.text index
      known.linkDefinitions? (index + 1) rest

end Linking

/-- The walk over a whole program in the strict way. -/
def Program.link? (program : Program) : Option (Linking × Option Name) := do
  match ← Linking.opened.linkDefinitions? 0 program.definitions with
  | (linking, some duplicate) => return (linking, some duplicate)
  | (linking, none) =>
    let walked ← program.expression.elim (some linking) linking.linkExpr?
    return (← walked.leave?, none)

/-! ## Expressions -/

namespace Linking

theorem current?_of_open {linking : Linking} (h : linking.scopes ≠ []) :
    linking.current? = some linking.current := by
  unfold current? current
  cases hscopes : linking.scopes with
  | nil => exact absurd hscopes h
  | cons scope outer => rfl

theorem leave?_of_open {linking : Linking} (h : linking.scopes ≠ []) :
    linking.leave? = some linking.leave := by
  rw [leave?, current?_of_open h, Option.map_some]

theorem define?_of_open {linking : Linking} (h : linking.scopes ≠ []) (text : String)
    (index : Nat) : linking.define? text index = some (linking.define text index) := by
  rw [define?, current?_of_open h, Option.map_some]

/-- **If a scope is open, the strict walk over an expression is the walk.** -/
theorem linkExpr?_of_open {linking : Linking} (h : linking.scopes ≠ []) (expr : Expr) :
    linking.linkExpr? expr = some (linking.linkExpr expr) := by
  have henter (inner : Linking) (scope : Scope) : (inner.enter scope).scopes ≠ [] := by simp
  induction expr generalizing linking with
  | var name => rw [linkExpr?, current?_of_open h, Option.map_some, linkExpr]
  | lam id parameter body span ih =>
    rw [linkExpr?, current?_of_open h, linkExpr]
    have hwalked := ih (henter (linking.noteParameter id parameter)
      (linking.current.bind parameter.text id))
    simp only [Option.bind_eq_bind, Option.bind_some, hwalked]
    exact leave?_of_open (by simp)
  | app callee argument span ihc iha =>
    rw [linkExpr?, current?_of_open h, linkExpr]
    have hcalled := ihc (henter linking linking.current)
    have hwalked : ((linking.enter linking.current).linkExpr callee).linkExpr? argument =
        some (((linking.enter linking.current).linkExpr callee).linkExpr argument) :=
      iha (by simp)
    simp only [Option.bind_eq_bind, Option.bind_some, hcalled, hwalked]
    exact leave?_of_open (by simp)

/-- Every expression needs a scope. -/
theorem linkExpr?_of_closed {linking : Linking} (h : linking.scopes = []) (expr : Expr) :
    linking.linkExpr? expr = none := by
  have hcurrent : linking.current? = none := by rw [current?, h, List.head?_nil]
  cases expr <;> rw [linkExpr?, hcurrent] <;> rfl

theorem linkExpr?_eq_some_iff {linking result : Linking} {expr : Expr} :
    linking.linkExpr? expr = some result ↔
      linking.scopes ≠ [] ∧ result = linking.linkExpr expr := by
  by_cases h : linking.scopes = []
  · simp [linkExpr?_of_closed h, h]
  · simp [linkExpr?_of_open h, h, eq_comm]

/-! ## Definitions -/

/-- The walk over definitions takes them one by one. -/
theorem linkDefinitions_cons (linking : Linking) (index : Nat) (definition : Definition)
    (rest : List Definition) :
    linking.linkDefinitions index (definition :: rest) =
      match linking.linkUnlessKnown definition with
      | (walked, some name) => (walked, some name)
      | (walked, none) =>
        (walked.define definition.name.text index).linkDefinitions (index + 1) rest := by
  unfold linkUnlessKnown
  rw [linkDefinitions]
  split <;> rfl

/-- **A definition leaves the open scopes as they were, be its name known or not.** -/
theorem scopes_linkUnlessKnown (linking : Linking) (definition : Definition) :
    (linking.linkUnlessKnown definition).1.scopes = linking.scopes := by
  unfold linkUnlessKnown
  split <;> simp

theorem linkUnlessKnown?_of_open {linking : Linking} (h : linking.scopes ≠ [])
    (definition : Definition) :
    linking.linkUnlessKnown? definition = some (linking.linkUnlessKnown definition) := by
  unfold linkUnlessKnown? linkUnlessKnown
  rw [current?_of_open h, Option.bind_eq_bind, Option.bind_some]
  split
  · rfl
  · have hwalked : (linking.enter {}).linkExpr? definition.expression =
        some ((linking.enter {}).linkExpr definition.expression) := linkExpr?_of_open (by simp) _
    rw [hwalked, Option.bind_eq_bind, Option.bind_some, leave?_of_open (by simp)]
    rfl

theorem linkUnlessKnown?_eq_some_iff {linking : Linking} {definition : Definition}
    {result : Linking × Option Name} :
    linking.linkUnlessKnown? definition = some result ↔
      linking.scopes ≠ [] ∧ result = linking.linkUnlessKnown definition := by
  by_cases h : linking.scopes = []
  · have hcurrent : linking.current? = none := by rw [current?, h, List.head?_nil]
    simp [linkUnlessKnown?, hcurrent, h]
  · simp [linkUnlessKnown?_of_open h, h, eq_comm]

theorem scopes_define_ne_nil {linking : Linking} (h : linking.scopes ≠ []) (text : String)
    (index : Nat) : (linking.define text index).scopes ≠ [] := by
  unfold define
  cases hscopes : linking.scopes with
  | nil => exact absurd hscopes h
  | cons scope outer => simp

/-- **If a scope is open, the strict walk over definitions is the walk.** -/
theorem linkDefinitions?_of_open {linking : Linking} (h : linking.scopes ≠ []) (index : Nat)
    (definitions : List Definition) :
    linking.linkDefinitions? index definitions =
      some (linking.linkDefinitions index definitions) := by
  induction definitions generalizing linking index with
  | nil => rfl
  | cons definition rest ih =>
    have hscopes := linking.scopes_linkUnlessKnown definition
    rw [linkDefinitions?, linkUnlessKnown?_of_open h, linkDefinitions_cons]
    generalize linking.linkUnlessKnown definition = outcome at hscopes ⊢
    obtain ⟨walked, name⟩ := outcome
    have hwalked : walked.scopes ≠ [] := by rwa [← hscopes] at h
    cases name with
    | none =>
      simp only [Option.bind_eq_bind, Option.bind_some, define?_of_open hwalked]
      exact ih (scopes_define_ne_nil hwalked _ _) (index + 1)
    | some name => rfl

end Linking

/-! ## What definitions leave open -/

/-- In a scope that knows some definitions by their indices, one of a new name becomes known by the
next index. -/
theorem Scope.definition?_define_eq_some_iff {scope : Scope} {definitions : List Definition}
    {definition : Definition}
    (h : ∀ text index, scope.definition? text = some index ↔
      definitions[index]?.map (·.name.text) = some text)
    (hnew : scope.definition? definition.name.text = none) (text : String) (index : Nat) :
    (scope.define definition.name.text definitions.length).definition? text = some index ↔
      (definitions ++ [definition])[index]?.map (·.name.text) = some text := by
  have hknown := h text index
  rw [definition?_define]
  rcases Nat.lt_trichotomy index definitions.length with hindex | rfl | hindex
  · rw [List.getElem?_append_left hindex, ← hknown]
    split
    · rename_i htext
      rw [htext, hnew]
      simp [Nat.ne_of_gt hindex]
    · rfl
  · rw [List.getElem?_eq_none (Nat.le_refl _)] at hknown
    split
    · rename_i htext
      simp [htext]
    · rename_i htext
      simp [hknown, Ne.symm htext]
  · rw [List.getElem?_eq_none (Nat.le_of_lt hindex)] at hknown
    rw [List.getElem?_eq_none (by rw [List.length_append, List.length_singleton]; omega)]
    split
    · simp [Nat.ne_of_lt hindex]
    · exact hknown

namespace Linking

/-- The scope of the program is the only one open. No parameter is known in it, and of definitions
just these, each by its index. -/
structure Knows (linking : Linking) (definitions : List Definition) : Prop where
  scopes_eq : linking.scopes = [linking.current]
  parameters_eq : linking.current.parameters = []
  definition?_iff : ∀ text index, linking.current.definition? text = some index ↔
    definitions[index]?.map (·.name.text) = some text

theorem knows_opened : opened.Knows [] where
  scopes_eq := rfl
  parameters_eq := rfl
  definition?_iff text index := by simp [opened, current, Scope.definition?]

/-- What is known depends on the open scopes alone. -/
theorem Knows.congr {linking other : Linking} {definitions : List Definition}
    (h : linking.Knows definitions) (hscopes : other.scopes = linking.scopes) :
    other.Knows definitions := by
  have hcurrent : other.current = linking.current := by rw [current, hscopes, current]
  exact ⟨by rw [hscopes, hcurrent, ← h.scopes_eq], by rw [hcurrent, h.parameters_eq],
    by rw [hcurrent]; exact h.definition?_iff⟩

/-- A definition of a new name is made known behind the others. -/
theorem Knows.define {linking : Linking} {definitions : List Definition} {definition : Definition}
    (h : linking.Knows definitions)
    (hnew : linking.current.definition? definition.name.text = none) :
    (linking.define definition.name.text definitions.length).Knows
      (definitions ++ [definition]) := by
  have hscopes : (linking.define definition.name.text definitions.length).scopes =
      [linking.current.define definition.name.text definitions.length] := by
    rw [Linking.define, h.scopes_eq]
  have hcurrent : (linking.define definition.name.text definitions.length).current =
      linking.current.define definition.name.text definitions.length := by
    rw [current, hscopes, List.head?_cons, Option.getD_some]
  refine ⟨by rw [hscopes, hcurrent], by rw [hcurrent]; exact h.parameters_eq, ?_⟩
  rw [hcurrent]
  exact Scope.definition?_define_eq_some_iff h.definition?_iff hnew

/-- Definitions that are all known have different names. -/
theorem Knows.nodup {linking : Linking} {definitions : List Definition}
    (h : linking.Knows definitions) : (definitions.map (·.name.text)).Nodup := by
  rw [List.nodup_iff_getElem?_ne_getElem?]
  intro first second hlt hlength heq
  rw [List.getElem?_eq_getElem hlength, List.getElem?_map] at heq
  have hfirst := (h.definition?_iff _ _).2 heq
  have hsecond := (h.definition?_iff _ second).2
    (by rw [← List.getElem?_map, List.getElem?_eq_getElem hlength])
  rw [hfirst, Option.some_inj] at hsecond
  omega

/-- **When definitions have all been walked through, they are known besides those before, and the
scope of the program is open alone.** -/
theorem knows_of_linkDefinitions {linking last : Linking} {done rest : List Definition}
    (h : linking.Knows done) (hwalk : linking.linkDefinitions done.length rest = (last, none)) :
    last.Knows (done ++ rest) := by
  induction rest generalizing linking done with
  | nil =>
    obtain rfl : linking = last := congrArg Prod.fst hwalk
    rwa [List.append_nil]
  | cons definition rest ih =>
    rw [linkDefinitions] at hwalk
    split at hwalk
    · cases congrArg Prod.snd hwalk
    · rename_i hnew
      have hdone : (linking.linkDefinition done.length definition).Knows
          (done ++ [definition]) := by
        refine Knows.define (h.congr (by simp)) ?_
        simpa [current] using hnew
      have hlast := ih hdone (by simpa using hwalk)
      rwa [List.append_assoc] at hlast

/-- All definitions are walked through exactly if they have different names. -/
theorem exists_linkDefinitions_opened_iff {definitions : List Definition} :
    (∃ last, opened.linkDefinitions 0 definitions = (last, none)) ↔
      (definitions.map (·.name.text)).Nodup := by
  constructor
  · rintro ⟨last, hwalk⟩
    exact (knows_of_linkDefinitions knows_opened hwalk).nodup
  · intro hnames
    have hwalk := Program.linkDefinitions_opened [] hnames
    rw [List.append_nil] at hwalk
    exact ⟨_, hwalk⟩

/-- When the first definitions have been walked through, the walk goes on with the others. -/
theorem linkDefinitions_opened_append {first : List Definition} {middle : Linking}
    (hwalk : opened.linkDefinitions 0 first = (middle, none)) (rest : List Definition) :
    opened.linkDefinitions 0 (first ++ rest) = middle.linkDefinitions first.length rest := by
  have hnames := exists_linkDefinitions_opened_iff.1 ⟨middle, hwalk⟩
  have hfirst := Program.linkDefinitions_opened [] hnames
  rw [List.append_nil] at hfirst
  obtain rfl := congrArg Prod.fst (hwalk.symm.trans hfirst)
  exact Program.linkDefinitions_opened rest hnames

end Linking

namespace Program

/-- The walk over a program goes through its definitions first. -/
theorem link_eq (program : Program) :
    program.link =
      match Linking.opened.linkDefinitions 0 program.definitions with
      | (linking, some duplicate) => (linking, some duplicate)
      | (linking, none) => ((program.expression.elim linking linking.linkExpr).leave, none) := rfl

/-- **The strict walk over a program is the walk.** -/
theorem link?_eq (program : Program) : program.link? = some program.link := by
  have hopened : Linking.opened.scopes ≠ [] := by simp [Linking.opened]
  have hwalk := Linking.linkDefinitions?_of_open hopened 0 program.definitions
  rw [link?, hwalk, Option.bind_eq_bind, Option.bind_some, link_eq]
  cases houtcome : Linking.opened.linkDefinitions 0 program.definitions with
  | mk linking duplicate =>
    cases duplicate with
    | some duplicate => rfl
    | none =>
      have hopen : linking.scopes ≠ [] := by
        rw [(Linking.knows_of_linkDefinitions Linking.knows_opened houtcome).scopes_eq]
        simp
      cases program.expression with
      | none => simp [Linking.leave?_of_open hopen]
      | some expression =>
        have hwalked : (linking.linkExpr expression).scopes ≠ [] := by simpa using hopen
        simp [Linking.linkExpr?_of_open hopen, Linking.leave?_of_open hwalked]

/-- A walk that no name has ended closes the scope of the program, too. -/
theorem scopes_link_eq_nil {program : Program} {last : Linking}
    (h : program.link = (last, none)) : last.scopes = [] := by
  rw [link_eq] at h
  split at h
  · cases congrArg Prod.snd h
  · rename_i linking hwalk
    have hknows := Linking.knows_of_linkDefinitions Linking.knows_opened hwalk
    obtain rfl := congrArg Prod.fst h
    cases program.expression <;> simp [hknows.scopes_eq]

end Program

/-- **The open scopes are balanced.** Walking through an expression leaves them as they were, every
one of them; so does walking through a definition, also if its name is known and nothing is walked
through. The strict walk through either comes to the same end if any scope is open at the beginning,
and only then. Over a whole program it comes to the same end, so nowhere is a scope needed that is
not there; and when it is through, all scopes are closed. The first definitions are all walked
through exactly if they have different names. Then just one scope is open; it knows no parameter,
and of definitions these by their own indices and no others; and the walk goes on from there. -/
theorem Linking.scopes_balanced :
    (∀ (linking : Linking) (expr : Expr),
      (linking.linkExpr expr).scopes = linking.scopes ∧
      ∀ result, linking.linkExpr? expr = some result ↔
        linking.scopes ≠ [] ∧ result = linking.linkExpr expr) ∧
    (∀ (linking : Linking) (definition : Definition),
      (linking.linkUnlessKnown definition).1.scopes = linking.scopes ∧
      ∀ result, linking.linkUnlessKnown? definition = some result ↔
        linking.scopes ≠ [] ∧ result = linking.linkUnlessKnown definition) ∧
    ∀ program : Program,
      program.link? = some program.link ∧
      (∀ last, program.link = (last, none) → last.scopes = []) ∧
      ∀ count ≤ program.definitions.length,
        ((∃ middle, opened.linkDefinitions 0 (program.definitions.take count) = (middle, none)) ↔
          ((program.definitions.take count).map (·.name.text)).Nodup) ∧
        ∀ middle, opened.linkDefinitions 0 (program.definitions.take count) = (middle, none) →
          middle.Knows (program.definitions.take count) ∧
          opened.linkDefinitions 0 program.definitions =
            middle.linkDefinitions count (program.definitions.drop count) := by
  refine ⟨?_, ?_, ?_⟩
  · intro linking expr
    exact ⟨linking.scopes_linkExpr expr, fun _ => linkExpr?_eq_some_iff⟩
  · intro linking definition
    exact ⟨linking.scopes_linkUnlessKnown definition, fun _ => linkUnlessKnown?_eq_some_iff⟩
  · intro program
    refine ⟨program.link?_eq, fun _ => Program.scopes_link_eq_nil, ?_⟩
    intro count hcount
    refine ⟨exists_linkDefinitions_opened_iff, ?_⟩
    intro middle hwalk
    have hrest := linkDefinitions_opened_append hwalk (program.definitions.drop count)
    rw [List.take_append_drop, List.length_take_of_le hcount] at hrest
    exact ⟨knows_of_linkDefinitions knows_opened hwalk, hrest⟩

/-- In `def f = λx.x def g = f (f g)` both definitions are known when the expression is reached. -/
theorem Linking.scopes_balanced_of_two_definitions :
    let identity : Expr := .lam ⟨0⟩ ⟨⟨1⟩, "x", ⟨10, 11⟩⟩ (.var ⟨⟨2⟩, "x", ⟨12, 13⟩⟩) ⟨8, 13⟩
    let first : Definition := ⟨⟨⟨0⟩, "f", ⟨4, 5⟩⟩, identity, ⟨0, 13⟩⟩
    let second : Definition := ⟨⟨⟨3⟩, "g", ⟨18, 19⟩⟩, .var ⟨⟨4⟩, "f", ⟨22, 23⟩⟩, ⟨14, 23⟩⟩
    let expression : Expr :=
      .app (.var ⟨⟨5⟩, "f", ⟨25, 26⟩⟩) (.var ⟨⟨6⟩, "g", ⟨27, 28⟩⟩) ⟨24, 29⟩
    let program : Program := ⟨[first, second], some expression⟩
    program.link? = some program.link ∧ program.link.1.scopes = [] ∧
      ∃ middle : Linking, opened.linkDefinitions 0 [first, second] = (middle, none) ∧
        middle.scopes = [middle.current] ∧ middle.current.definition? "g" = some 1 ∧
        (middle.linkExpr expression).scopes = middle.scopes := by
  intro identity first second expression program
  obtain ⟨hexpression, _, hprogram⟩ := scopes_balanced
  obtain ⟨hstrict, hclosed, hdefinitions⟩ := hprogram program
  obtain ⟨hthrough, hknows⟩ := hdefinitions 2 (by decide)
  obtain ⟨middle, hwalk⟩ := hthrough.2 (by decide)
  have hmiddle := (hknows middle hwalk).1
  refine ⟨hstrict, hclosed program.link.1 rfl, middle, hwalk, hmiddle.scopes_eq, ?_, ?_⟩
  · exact (hmiddle.definition?_iff "g" 1).2 rfl
  · exact (hexpression middle expression).1

end ScopedLambda
