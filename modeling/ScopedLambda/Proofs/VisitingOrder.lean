import ScopedLambda.Proofs.CanonicalNumbering

/-!
# The order of a visit

Every node of a tree has an address below a node where a visit begins: which of the nodes directly
inside is taken, step by step. A visit meets the nodes by ascending address, so each before what is
inside it and what is inside it before what follows, and it meets every address once. What is inside
a node that the visitor does not enter is left out, and nothing else is.

* `Node.children` — the nodes directly inside a node, in the order of the source.
* `Node.at?` — the node at an address below a node.
* `Node.Reached` — an address below a node, all nodes on the way to which are entered.
* `Listed` — a list of what stands at certain addresses, by ascending address.

Principal results: `Node.visit_eq` — a visit meets a node and then, if it is entered, what is inside;
`Visitor.recording_visit`, `Visitor.naming_visit` — what the two visitors note; `Node.listed_visit` —
a visit lists what is reached; `Visitor.visits_in_source_order` — the order and the extent of every
visit.
-/

set_option autoImplicit false

namespace ScopedLambda

/-! ## Addresses -/

namespace Node

/-- The nodes directly inside a node, in the order of the source. -/
def children : Node → List Node
  | .program whole => whole.definitions.map .definition ++ whole.expression.toList.map Expr.node
  | .definition given => [.name given.name, given.expression.node]
  | .function lambda => [.name lambda.parameter, lambda.body.node]
  | .application callee argument _ => [callee.node, argument.node]
  | .name _ => []

/-- The node at an address: at every step, the number of the child to be taken. -/
def at? (node : Node) : List Nat → Option Node
  | [] => some node
  | position :: address => (node.children[position]?).bind (at? · address)

/-- `node` stands at `address` below `start`, and all nodes on the way to it are entered. -/
def Reached (enter : Node → Bool) (start : Node) (address : List Nat) (node : Node) : Prop :=
  start.at? address = some node ∧
    ∀ before ancestor, before <+: address → before ≠ address →
      start.at? before = some ancestor → enter ancestor = true

/-- Whether the kind of a node is none of those to be skipped. -/
def unskipped (skipped : List NodeKind) (node : Node) : Bool :=
  node.kind?.all fun kind => !skipped.contains kind

theorem unskipped_iff {skipped : List NodeKind} {node : Node} :
    node.unskipped skipped = true ↔ ∀ kind ∈ skipped, node.kind? ≠ some kind := by
  unfold unskipped
  cases node.kind? with
  | none => simp
  | some kind =>
    simp only [Option.all_some, Bool.not_eq_true', List.contains_eq_mem, decide_eq_false_iff_not]
    constructor
    · rintro hnot other hmem heq
      exact hnot (Option.some.inj heq ▸ hmem)
    · exact fun hnone hmem => hnone kind hmem rfl

/-- What holds of a node when it holds of the nodes directly inside it holds of all nodes. -/
theorem children_induction {motive : Node → Prop}
    (step : ∀ node : Node, (∀ child ∈ node.children, motive child) → motive node) (node : Node) :
    motive node := by
  have hpair {node first second : Node} (hchildren : node.children = [first, second])
      (hfirst : motive first) (hsecond : motive second) : motive node := by
    apply step
    rw [hchildren]
    exact List.forall_mem_cons.2 ⟨hfirst, List.forall_mem_singleton.2 hsecond⟩
  have hname (met : Name) : motive (.name met) := step _ (by simp [children])
  have hexpr (expr : Expr) : motive expr.node := by
    induction expr with
    | var met => exact hname met
    | lam id parameter body span ih => exact hpair rfl (hname parameter) ih
    | app callee argument span ihc iha => exact hpair rfl ihc iha
  have hdefinition (given : Definition) : motive (.definition given) :=
    hpair rfl (hname given.name) (hexpr given.expression)
  cases node with
  | program whole =>
    refine step _ fun child hmem => ?_
    rcases List.mem_append.1 hmem with hmem | hmem
    · obtain ⟨given, _, rfl⟩ := List.mem_map.1 hmem
      exact hdefinition given
    · obtain ⟨expr, _, rfl⟩ := List.mem_map.1 hmem
      exact hexpr expr
  | definition given => exact hdefinition given
  | function lambda => exact hexpr (.lam lambda.id lambda.parameter lambda.body lambda.span)
  | application callee argument span => exact hexpr (.app callee argument span)
  | name met => exact hname met

section

variable {enter : Node → Bool} {start node : Node}

theorem reached_nil_iff : start.Reached enter [] node ↔ node = start := by
  constructor
  · rintro ⟨hnode, _⟩
    exact (Option.some.inj hnode).symm
  · rintro rfl
    exact ⟨rfl, fun before _ hprefix hne => absurd (List.prefix_nil.1 hprefix) hne⟩

/-- To reach a node further inside, the first node is entered and a child of it is taken. -/
theorem reached_cons_iff {position : Nat} {address : List Nat} :
    start.Reached enter (position :: address) node ↔
      enter start = true ∧ ∃ child, start.children[position]? = some child ∧
        child.Reached enter address node := by
  constructor
  · rintro ⟨hnode, hway⟩
    obtain ⟨child, hchild, hnode⟩ := Option.bind_eq_some_iff.1 hnode
    refine ⟨hway [] start List.nil_prefix (by simp) rfl, child, hchild, hnode, ?_⟩
    intro before ancestor hprefix hne hancestor
    refine hway (position :: before) ancestor (List.cons_prefix_cons.2 ⟨rfl, hprefix⟩)
      (by simpa using hne) ?_
    rw [at?, hchild, Option.bind_some, hancestor]
  · rintro ⟨hstart, child, hchild, hnode, hway⟩
    refine ⟨by rw [at?, hchild, Option.bind_some, hnode], ?_⟩
    intro before ancestor hprefix hne hancestor
    cases before with
    | nil =>
      obtain rfl : start = ancestor := Option.some.inj hancestor
      exact hstart
    | cons first before =>
      obtain ⟨rfl, hrest⟩ := List.cons_prefix_cons.1 hprefix
      rw [at?, hchild, Option.bind_some] at hancestor
      exact hway before ancestor hrest (fun heq => hne (by rw [heq])) hancestor

end

end Node

/-! ## Lists by ascending address -/

/-- `list` holds what stands at the addresses that `Stands` allows, each once, the lower addresses
first. An address is lower than those that go on from it, and than those that take a later child
where the two part. -/
def Listed {α : Type} (Stands : List Nat → α → Prop) (list : List α) : Prop :=
  ∃ entries : List (List Nat × α), entries.map (·.2) = list ∧
    (entries.map (·.1)).Pairwise (· < ·) ∧
    ∀ address a, (address, a) ∈ entries ↔ Stands address a

namespace Listed

variable {α β : Type}

theorem congr {Stands Stands' : List Nat → α → Prop} {list : List α} (h : Listed Stands list)
    (hiff : ∀ address a, Stands address a ↔ Stands' address a) : Listed Stands' list := by
  obtain ⟨entries, hlist, hascending, hmem⟩ := h
  exact ⟨entries, hlist, hascending, fun address a => (hmem address a).trans (hiff address a)⟩

/-- What is selected from a list stands where it stood. -/
theorem filterMap {Stands : List Nat → α → Prop} {list : List α} (h : Listed Stands list)
    (f : α → Option β) :
    Listed (fun address b => ∃ a, Stands address a ∧ f a = some b) (list.filterMap f) := by
  obtain ⟨entries, rfl, hascending, hmem⟩ := h
  let keep (entry : List Nat × α) : Option (List Nat × β) := (f entry.2).map (entry.1, ·)
  have hkeep (entry : List Nat × α) (other : List Nat × β) :
      keep entry = some other ↔ f entry.2 = some other.2 ∧ entry.1 = other.1 := by
    obtain ⟨address, b⟩ := other
    simp [keep, and_comm]
  refine ⟨entries.filterMap keep, ?_, ?_, ?_⟩
  · rw [List.map_filterMap, List.filterMap_map]
    congr 1
    funext entry
    simp [keep, Function.comp_def]
  · rw [List.pairwise_map] at hascending ⊢
    rw [List.pairwise_filterMap]
    refine hascending.imp ?_
    intro first second hlt other hother other' hother'
    rw [← ((hkeep _ _).1 hother).2, ← ((hkeep _ _).1 hother').2]
    exact hlt
  · intro address b
    rw [List.mem_filterMap]
    constructor
    · rintro ⟨⟨address', a⟩, hentry, hsome⟩
      obtain ⟨hb, rfl⟩ := (hkeep _ _).1 hsome
      exact ⟨a, (hmem _ _).1 hentry, hb⟩
    · rintro ⟨a, hstands, hb⟩
      exact ⟨(address, a), (hmem _ _).2 hstands, (hkeep _ _).2 ⟨hb, rfl⟩⟩

/-- What stands below the children of a node, one child after the other. The first of them has the
number `first`. -/
theorem flatMap {Stands : β → List Nat → α → Prop} {below : β → List α} {children : List β}
    (h : ∀ child ∈ children, Listed (Stands child) (below child)) (first : Nat) :
    Listed (fun address a => ∃ position child rest, children[position]? = some child ∧
      address = (first + position) :: rest ∧ Stands child rest a) (children.flatMap below) := by
  induction children generalizing first with
  | nil => exact ⟨[], rfl, .nil, by simp⟩
  | cons child rest ih =>
    rw [List.forall_mem_cons] at h
    obtain ⟨entries, hlist, hascending, hmem⟩ := h.1
    obtain ⟨later, hlist', hascending', hmem'⟩ := ih h.2 (first + 1)
    refine ⟨entries.map (fun entry => (first :: entry.1, entry.2)) ++ later, ?_, ?_, ?_⟩
    · rw [List.map_append, List.map_map, List.flatMap_cons, ← hlist, ← hlist']
      rfl
    · rw [List.map_append, List.map_map, List.pairwise_append]
      refine ⟨?_, hascending', ?_⟩
      · rw [List.pairwise_map] at hascending ⊢
        refine hascending.imp fun hlt => ?_
        exact List.cons_lt_cons_iff.2 (.inr ⟨rfl, hlt⟩)
      · intro address haddress address' haddress'
        obtain ⟨entry, _, rfl⟩ := List.mem_map.1 haddress
        obtain ⟨⟨_, a⟩, hentry, rfl⟩ := List.mem_map.1 haddress'
        obtain ⟨position, _, down, _, rfl, _⟩ := (hmem' _ _).1 hentry
        exact List.cons_lt_cons_iff.2 (.inl (by omega))
    · intro address a
      rw [List.mem_append, hmem']
      constructor
      · rintro (hentry | ⟨position, other, down, hother, rfl, hstands⟩)
        · obtain ⟨⟨down, _⟩, hdown, heq⟩ := List.mem_map.1 hentry
          obtain ⟨rfl, rfl⟩ := Prod.mk.inj heq
          exact ⟨0, child, down, rfl, rfl, (hmem _ _).1 hdown⟩
        · exact ⟨position + 1, other, down, hother, by rw [Nat.add_assoc, Nat.add_comm 1], hstands⟩
      · rintro ⟨position, other, down, hother, rfl, hstands⟩
        cases position with
        | zero =>
          obtain rfl : child = other := by simpa using hother
          exact .inl (List.mem_map.2 ⟨(down, a), (hmem _ _).2 hstands, rfl⟩)
        | succ position =>
          exact .inr ⟨position, other, down, by simpa using hother,
            by rw [Nat.add_assoc, Nat.add_comm 1], hstands⟩

/-- What stands at the address of the start comes before what stands further inside. -/
theorem cons {Stands : List Nat → α → Prop} {a : α} {list : List α}
    (h : Listed (fun address b => address ≠ [] ∧ Stands address b) list)
    (ha : ∀ b, Stands [] b ↔ b = a) : Listed Stands (a :: list) := by
  obtain ⟨entries, rfl, hascending, hmem⟩ := h
  refine ⟨([], a) :: entries, rfl, ?_, ?_⟩
  · rw [List.map_cons, List.pairwise_cons]
    refine ⟨?_, hascending⟩
    intro address haddress
    obtain ⟨⟨_, b⟩, hentry, rfl⟩ := List.mem_map.1 haddress
    obtain ⟨position, down, heq⟩ := List.exists_cons_of_ne_nil ((hmem _ _).1 hentry).1
    rw [heq]
    exact List.nil_lt_cons position down
  · intro address b
    rw [List.mem_cons, hmem]
    constructor
    · rintro (heq | ⟨_, hstands⟩)
      · obtain ⟨rfl, rfl⟩ := Prod.mk.inj heq
        exact (ha b).2 rfl
      · exact hstands
    · intro hstands
      cases address with
      | nil => exact .inl (by rw [(ha b).1 hstands])
      | cons position down => exact .inr ⟨by simp, hstands⟩

end Listed

/-! ## Visits -/

namespace Node

/-- The nodes met by a visitor that is called at a node and goes inside those chosen by `enter`. -/
def visit (enter : Node → Bool) : Node → List Node
  | .program whole => whole.visit enter
  | .definition given => given.visit enter
  | .function lambda => (Expr.lam lambda.id lambda.parameter lambda.body lambda.span).visit enter
  | .application callee argument span => (Expr.app callee argument span).visit enter
  | .name met => [.name met]

theorem visit_node (enter : Node → Bool) (expr : Expr) :
    expr.node.visit enter = expr.visit enter := by
  cases expr <;> rfl

/-- **A visit meets a node and then, if the node is entered, what is inside, child by child.** -/
theorem visit_eq (enter : Node → Bool) (node : Node) :
    node.visit enter =
      node :: if enter node then node.children.flatMap (·.visit enter) else [] := by
  have hpair (first second : Node) : [first, second].flatMap (·.visit enter) =
      first.visit enter ++ second.visit enter := by simp
  cases node with
  | program whole =>
    rw [children, List.flatMap_append, List.flatMap_map, List.flatMap_map]
    simp only [visit_node]
    rfl
  | definition given =>
    rw [children, hpair, visit_node]
    rfl
  | function lambda =>
    rw [children, hpair, visit_node]
    rfl
  | application callee argument span =>
    rw [children, hpair, visit_node, visit_node]
    rfl
  | name met => simp [visit, children]

/-- **A visit lists what is reached.** -/
theorem listed_visit (enter : Node → Bool) (start : Node) :
    Listed (start.Reached enter) (start.visit enter) := by
  induction start using children_induction with
  | step start ih =>
    rw [visit_eq]
    refine Listed.cons ?_ fun node => reached_nil_iff
    cases henter : enter start with
    | false =>
      refine ⟨[], rfl, .nil, fun address node => iff_of_false List.not_mem_nil ?_⟩
      rintro ⟨hne, hreached⟩
      obtain ⟨position, down, rfl⟩ := List.exists_cons_of_ne_nil hne
      rw [(reached_cons_iff.1 hreached).1] at henter
      cases henter
    | true =>
      refine (Listed.flatMap ih 0).congr fun address node => ?_
      constructor
      · rintro ⟨position, child, down, hchild, rfl, hreached⟩
        rw [Nat.zero_add]
        exact ⟨by simp, reached_cons_iff.2 ⟨henter, child, hchild, hreached⟩⟩
      · rintro ⟨hne, hreached⟩
        obtain ⟨position, down, rfl⟩ := List.exists_cons_of_ne_nil hne
        obtain ⟨_, child, hchild, hreached⟩ := reached_cons_iff.1 hreached
        exact ⟨position, child, down, hchild, by rw [Nat.zero_add], hreached⟩

/-- A visit that enters every node reaches what stands anywhere below the start. -/
theorem reached_all_iff {start node : Node} {address : List Nat} :
    start.Reached (fun _ => true) address node ↔ start.at? address = some node :=
  and_iff_left fun _ _ _ _ _ => rfl

end Node

/-! ## The visitors -/

namespace Visitor

theorem recording_visitExpr (enter : Node → Bool) (expr : Expr) (noted : List Node) :
    (recording enter).visitExpr expr noted = noted ++ expr.visit enter := by
  induction expr generalizing noted with
  | var met => rfl
  | lam id parameter body span ih =>
    simp only [visitExpr, ih]
    simp only [recording, Expr.visit]
    split <;> simp
  | app callee argument span ihc iha =>
    simp only [visitExpr, ihc, iha]
    simp only [recording, Expr.visit]
    split <;> simp

theorem recording_visitDefinition (enter : Node → Bool) (given : Definition)
    (noted : List Node) :
    (recording enter).visitDefinition given noted = noted ++ given.visit enter := by
  simp only [visitDefinition, recording_visitExpr]
  simp only [recording, Definition.visit]
  split <;> simp

theorem recording_visitProgram (enter : Node → Bool) (whole : Program) (noted : List Node) :
    (recording enter).visitProgram whole noted = noted ++ whole.visit enter := by
  have hdefinitions (noted : List Node) :
      whole.definitions.foldl (fun noted given =>
        (recording enter).visitDefinition given noted) noted =
      noted ++ whole.definitions.flatMap (·.visit enter) := by
    simp only [recording_visitDefinition]
    rw [List.foldl_append_eq_append, List.flatMap_def]
  simp only [visitProgram, hdefinitions, recording_visitExpr]
  cases hexpression : whole.expression <;>
    simp only [recording, Program.visit, hexpression] <;> split <;> simp

/-- **The recording visitor notes what a visit meets.** -/
theorem recording_visit (enter : Node → Bool) (start : Node) (noted : List Node) :
    (recording enter).visit start noted = noted ++ start.visit enter := by
  cases start with
  | program whole => exact recording_visitProgram enter whole noted
  | definition given => exact recording_visitDefinition enter given noted
  | function lambda => exact recording_visitExpr enter _ noted
  | application callee argument span => exact recording_visitExpr enter _ noted
  | name met => rfl

theorem naming_visitExpr (expr : Expr) (named : List Name) :
    naming.visitExpr expr named = named ++ expr.names := by
  induction expr generalizing named with
  | var met => rfl
  | lam id parameter body span ih =>
    show naming.visitExpr body (named ++ [parameter]) = _
    rw [ih, Expr.names, List.append_assoc, List.singleton_append]
  | app callee argument span ihc iha =>
    show naming.visitExpr argument (naming.visitExpr callee named) = _
    rw [ihc, iha, Expr.names, List.append_assoc]

theorem naming_visitDefinition (given : Definition) (named : List Name) :
    naming.visitDefinition given named = named ++ given.name :: given.expression.names := by
  show naming.visitExpr given.expression (named ++ [given.name]) = _
  rw [naming_visitExpr, List.append_assoc, List.singleton_append]

theorem naming_visitProgram (whole : Program) (named : List Name) :
    naming.visitProgram whole named = named ++ whole.names := by
  have hdefinitions : whole.definitions.foldl (fun named given =>
      naming.visitDefinition given named) named =
      named ++ whole.definitions.flatMap fun given => given.name :: given.expression.names := by
    simp only [naming_visitDefinition]
    rw [List.foldl_append_eq_append, List.flatMap_def]
  show whole.expression.elim (whole.definitions.foldl (fun named given =>
    naming.visitDefinition given named) named) (naming.visitExpr · _) = _
  rw [hdefinitions, Program.names]
  cases whole.expression with
  | none => simp
  | some expr => simp [naming_visitExpr]

/-- **The naming visitor notes the names that a visit meets when it enters every node.** -/
theorem naming_visit (start : Node) :
    naming.visit start [] = (start.visit fun _ => true).filterMap Node.name? := by
  cases start with
  | program whole => exact (naming_visitProgram whole []).trans whole.names_visit.symm
  | definition given =>
    simp [visit, naming_visitDefinition, Node.visit, Definition.visit, Node.name?,
      List.filterMap_cons, Expr.names_visit]
  | function lambda => exact (naming_visitExpr _ []).trans (Expr.names_visit _).symm
  | application callee argument span =>
    exact (naming_visitExpr _ []).trans (Expr.names_visit _).symm
  | name met => rfl

/-- **Every visit goes by the order of the source, and leaves out what is inside the nodes it does
not enter.** Called at a node — a program, or an expression of it — a visitor that notes each node
and goes inside unless the node is of one of the kinds to be skipped notes exactly those nodes at or
below the start of which no node further up, from the start on, is of such a kind: each address
once, and by ascending address, so that a node comes before what is inside it, a definition's name
before its expression, a parameter before the body, a callee before the argument, definitions before
the trailing expression. A visitor that has a way of its own for names only is called at all names
below the start, uses and declarations alike, in the same order. -/
theorem visits_in_source_order (start : Node) :
    (∀ skipped : List NodeKind,
      Listed (fun address node => start.at? address = some node ∧
          ∀ before ancestor, before <+: address → before ≠ address →
            start.at? before = some ancestor → ∀ kind ∈ skipped, ancestor.kind? ≠ some kind)
        ((recording (Node.unskipped skipped)).visit start [])) ∧
    Listed (fun address met => start.at? address = some (.name met)) (naming.visit start []) := by
  constructor
  · intro skipped
    rw [recording_visit, List.nil_append]
    refine (Node.listed_visit (Node.unskipped skipped) start).congr fun address node => ?_
    simp only [Node.Reached, Node.unskipped_iff]
  · rw [naming_visit]
    refine ((Node.listed_visit (fun _ => true) start).filterMap Node.name?).congr ?_
    intro address met
    simp only [Node.reached_all_iff]
    constructor
    · rintro ⟨node, hnode, hmet⟩
      cases node with
      | name other =>
        obtain rfl : other = met := Option.some.inj hmet
        exact hnode
      | program | definition | function | application => cases hmet
    · exact fun hnode => ⟨.name met, hnode, rfl⟩

end Visitor

end ScopedLambda
