import ScopedLambda.Proofs.Walk

/-!
# Analysis aloud

An analysis returns its journal when all is done. Here the same work is done aloud: every entry is
told at the moment at which it is made, to a listener who may do with it whatever a monad allows —
keep it, drop it, write it to a file.

* `tellAll` — tells some entries one after the other, and returns a value.
* `Linking.linkExprAloud`, `Linking.linkDefinitionsAloud`, `Program.analyseAloud`, `analyseAloud` —
  the work, done aloud.
* `keepUpTo` — a listener who keeps the entries that are at least as severe as a threshold.

Principal results: `analyseAloud_eq` — whoever listens is told the journal and has no part in the
outcome; `run_analyseAloud_keepUpTo` — what is kept under a threshold is that part of the journal.
-/

set_option autoImplicit false

namespace ScopedLambda

variable {m : Type → Type} [Monad m] (tell : Entry → m Unit)

/-! ## Telling -/

/-- Tells some entries one after the other, and returns a value. -/
def tellAll {α : Type} (entries : List Entry) (value : α) : m α := do
  entries.forM tell
  return value

/-! ## The work, done aloud -/

namespace Linking

/-- Links the uses in an expression, and tells of each before it is linked. -/
def linkExprAloud (linking : Linking) : Expr → m Linking
  | .var name => do
    tell (.sighted ⟨name, linking.current.binder? name.text, linking.depth⟩)
    return linking.linkName name
  | .lam id parameter body _ => do
    let inner := linking.current.bind parameter.text id
    let walked ← ((linking.noteParameter id parameter).enter inner).linkExprAloud body
    return walked.leave
  | .app callee argument _ => do
    let called ← (linking.enter linking.current).linkExprAloud callee
    let walked ← called.linkExprAloud argument
    return walked.leave

/-- Links definitions, the first of which has the index `index`. -/
def linkDefinitionsAloud (linking : Linking) (index : Nat) :
    List Definition → m (Linking × Option Name)
  | [] => return (linking, none)
  | definition :: rest =>
    if (linking.current.definition? definition.name.text).isSome then
      return (linking, some definition.name)
    else do
      let walked ← (linking.enter {}).linkExprAloud tell definition.expression
      (walked.leave.define definition.name.text index).linkDefinitionsAloud (index + 1) rest

end Linking

/-- Tells that every use is linked: of the shadowings, if there are any, and then of the uses. -/
def BindingTable.tellLinked (table : BindingTable) (definitions : Nat) : m Unit := do
  if table.shadowings ≠ [] then
    tell (.shadowingsFound table.shadowings.length)
    table.shadowings.forM fun shadowing => tell (.shadowed shadowing)
  tell (.linked table.useCount definitions)

/-- Links a program. -/
def Program.analyseAloud (program : Program) : m (Except SourceError LinkedProgram) := do
  let opened : Linking := { scopes := [{}] }
  match ← opened.linkDefinitionsAloud tell 0 program.definitions with
  | (_, some duplicate) => return .error (.duplicateDefinition duplicate.text duplicate.span)
  | (linking, none) =>
    let walked ← program.expression.elim (pure linking) (linking.linkExprAloud tell)
    let table := walked.leave.table
    table.tellLinked tell program.definitions.length
    tell (.completed program.definitions.length)
    return .ok ⟨program, table⟩

/-- Reads and links a program from a cursor on. -/
def Cursor.analyseAloud (cursor : Cursor) : m (Except SourceError LinkedProgram) :=
  match cursor.readProgram with
  | (.error fault, _) => return .error (.grammar fault.diagnostic)
  | (.ok program, _) => program.analyseAloud tell

/-- Splits a text into tokens, reads them as a program, and links it. -/
def analyseAloud (source : String) : m (Except SourceError LinkedProgram) :=
  match scan source with
  | .error error => return .error (.lexical error)
  | .ok tokens => do
    tell (.scanned tokens.length)
    (Cursor.ofTokens tokens).analyseAloud tell

/-! ## What is told -/

namespace Linking

@[simp] theorem current_linkExpr (linking : Linking) (expr : Expr) :
    (linking.linkExpr expr).current = linking.current := by
  rw [current, scopes_linkExpr, current]

@[simp] theorem depth_linkExpr (linking : Linking) (expr : Expr) :
    (linking.linkExpr expr).depth = linking.depth := by
  rw [depth, scopes_linkExpr, depth]

theorem depth_noteParameter (linking : Linking) (id : FunctionId) (parameter : Name) :
    (linking.noteParameter id parameter).depth = linking.depth := by
  rw [depth, scopes_noteParameter, depth]

/-- **The walk over an expression, done aloud, tells of the uses that it meets.** -/
theorem linkExprAloud_eq [LawfulMonad m] (linking : Linking) (expr : Expr) :
    linking.linkExprAloud tell expr =
      tellAll tell ((expr.sightings linking.current linking.depth).map .sighted)
        (linking.linkExpr expr) := by
  induction expr generalizing linking with
  | var name =>
    simp only [linkExprAloud, tellAll, Expr.sightings, List.map_cons, List.map_nil,
      List.forM_eq_forM, List.forM_cons, List.forM_nil, bind_assoc, pure_bind]
    rfl
  | lam id parameter body span ih =>
    simp only [linkExprAloud, ih, tellAll, bind_assoc, pure_bind, current_enter, depth_enter,
      depth_noteParameter]
    rfl
  | app callee argument span ihc iha =>
    simp only [linkExprAloud, ihc, iha, tellAll, bind_assoc, pure_bind, current_linkExpr,
      depth_linkExpr, current_enter, depth_enter, Expr.sightings, List.map_append,
      List.forM_eq_forM, List.forM_append]
    rfl

/-- The uses in an expression are seen besides those before. -/
theorem sightings_linkExpr (linking : Linking) (expr : Expr) :
    (linking.linkExpr expr).sightings =
      linking.sightings ++ expr.sightings linking.current linking.depth := by
  rw [linkExpr_eq_observe]
  rfl

/-- The walk over definitions, done aloud, tells of the uses that it meets. -/
theorem linkDefinitionsAloud_eq [LawfulMonad m] (linking : Linking) (index : Nat)
    (definitions : List Definition) :
    ∃ met, (linking.linkDefinitions index definitions).1.sightings = linking.sightings ++ met ∧
      linking.linkDefinitionsAloud tell index definitions =
        tellAll tell (met.map .sighted) (linking.linkDefinitions index definitions) := by
  induction definitions generalizing linking index with
  | nil =>
    refine ⟨[], ?_, ?_⟩
    · rw [linkDefinitions, List.append_nil]
    · simp [linkDefinitionsAloud, linkDefinitions, tellAll]
  | cons definition rest ih =>
    rw [linkDefinitions, linkDefinitionsAloud]
    split
    · exact ⟨[], by simp, by simp [tellAll]⟩
    · obtain ⟨met, hmet, haloud⟩ := ih (linking.linkDefinition index definition) (index + 1)
      have hfirst : (linking.linkDefinition index definition).sightings =
          linking.sightings ++ definition.expression.sightings {} (linking.depth + 1) :=
        (linking.enter {}).sightings_linkExpr definition.expression
      refine ⟨definition.expression.sightings {} (linking.depth + 1) ++ met, ?_, ?_⟩
      · rw [hmet, hfirst, List.append_assoc]
      · rw [linkDefinition] at haloud
        simp only [linkExprAloud_eq, haloud, tellAll, bind_assoc, pure_bind, List.map_append,
          List.forM_eq_forM, List.forM_append]
        rfl

end Linking

theorem BindingTable.tellLinked_eq [LawfulMonad m] (table : BindingTable) (definitions : Nat) :
    table.tellLinked tell definitions =
      tellAll tell (shadowingEntries table.shadowings ++ [.linked table.useCount definitions])
        () := by
  unfold tellLinked shadowingEntries
  cases table.shadowings with
  | nil => simp [tellAll]
  | cons shadowing rest => simp [tellAll, List.forM_eq_forM]

/-- **Whoever listens while a program is linked is told the journal and has no part in the
outcome.** -/
theorem Program.analyseAloud_eq [LawfulMonad m] (program : Program) :
    program.analyseAloud tell = tellAll tell program.analyse.journal program.analyse.outcome := by
  obtain ⟨met, hmet, haloud⟩ :=
    Linking.linkDefinitionsAloud_eq tell { scopes := [{}] } 0 program.definitions
  simp only [analyseAloud, haloud, analyse, link, tellAll, bind_assoc, pure_bind]
  generalize Linking.linkDefinitions _ 0 program.definitions = outcome at hmet ⊢
  obtain ⟨linking, duplicate⟩ := outcome
  obtain rfl : linking.sightings = met := by simpa using hmet
  cases duplicate with
  | some duplicate => rfl
  | none =>
    cases program.expression with
    | none => simp [BindingTable.tellLinked_eq, tellAll, List.forM_eq_forM, Linking.leave]
    | some expression =>
      simp [BindingTable.tellLinked_eq, Linking.linkExprAloud_eq, Linking.sightings_linkExpr,
        tellAll, List.forM_eq_forM, Linking.leave]

theorem Cursor.analyseAloud_eq [LawfulMonad m] (cursor : Cursor) :
    cursor.analyseAloud tell =
      tellAll tell cursor.analyse.1.journal cursor.analyse.1.outcome := by
  unfold analyseAloud analyse
  rcases cursor.readProgram with ⟨fault | program, last⟩
  · simp [tellAll]
  · exact program.analyseAloud_eq tell

/-- **Whoever listens is told the journal, entry by entry, and has no part in the outcome.** -/
theorem analyseAloud_eq [LawfulMonad m] (source : String) :
    analyseAloud tell source = tellAll tell (analyse source).journal (analyse source).outcome := by
  unfold analyseAloud analyse
  cases scan source with
  | error error => simp [tellAll]
  | ok tokens => simp [Cursor.analyseAloud_eq, tellAll, List.forM_eq_forM]

/-! ## Listening up to a level -/

/-- Keeps an entry if it is at least as severe as the threshold; without a threshold, none is. -/
def keepUpTo (threshold : Option Level) (entry : Entry) : StateM (List Entry) Unit :=
  if threshold.any (entry.level.rank ≤ ·.rank) then modify (· ++ [entry]) else pure ()

theorem run_tellAll_keepUpTo {α : Type} (threshold : Option Level) (entries : List Entry)
    (value : α) (kept : List Entry) :
    (tellAll (keepUpTo threshold) entries value).run kept =
      (value, kept ++ upTo threshold entries) := by
  induction entries generalizing kept with
  | nil =>
    rw [upTo, List.filter_nil, List.append_nil]
    rfl
  | cons entry rest ih =>
    have hstep : (tellAll (keepUpTo threshold) (entry :: rest) value).run kept =
        (tellAll (keepUpTo threshold) rest value).run ((keepUpTo threshold entry).run kept).2 := rfl
    rw [hstep, ih, keepUpTo, upTo, upTo, List.filter_cons]
    split
    · exact congrArg (Prod.mk value) (List.append_assoc kept [entry] _)
    · rfl

/-- **What a listener keeps under a threshold is the part of the journal at that level and the more
severe ones, and the outcome is the same under all.** -/
theorem run_analyseAloud_keepUpTo (threshold : Option Level) (source : String) :
    (analyseAloud (keepUpTo threshold) source).run [] =
      (parse source, upTo threshold (analyse source).journal) := by
  rw [analyseAloud_eq, run_tellAll_keepUpTo, List.nil_append, parse]

end ScopedLambda
