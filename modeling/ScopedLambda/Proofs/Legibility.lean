import Mathlib.Data.List.Basic
import ScopedLambda.Proofs.CanonicalNumbering
import ScopedLambda.Proofs.Refusals
import ScopedLambda.Proofs.RoundTrip
import ScopedLambda.StructureText

/-!
# Written programs can be told apart

Neither notation escapes anything, and yet a text says what was written: a name ends where no name
goes on, and the first character of an expression tells a name, a function and an application apart.
Both notations are one scheme of writing with other delimiters, so this is shown once.

* `Legible` — what was written can be read off a text, and where it ends, too.
* `Brackets`, `Delimiters` — what a notation puts before, between and behind the parts of a tree.
* `Expr.write`, `Definition.write` — a tree written with some delimiters.
* `Delimiters.Telling` — delimiters that end names and whose first characters differ.

Principal results: `Legible.intercalate` — so can a list with separators; `Expr.legible_write` —
telling delimiters are legible; `texts_tell_programs_apart` — programs that were read have the same
lambda text, or the same structure text, exactly if they are the same up to their spans.
-/

set_option autoImplicit false

namespace ScopedLambda

open Text

/-! ## Legible texts -/

/-- Whatever stands behind them, as far as `behind` admits it: where the two texts begin alike,
`same` holds and the same is left. -/
def ReadAlike (behind : List Char → Prop) (first second : List Char) (same : Prop) : Prop :=
  ∀ ⦃rest rest' : List Char⦄, behind rest → behind rest' →
    first ++ rest = second ++ rest' → same ∧ rest = rest'

/-- The `key` of what was written can be read off a text, and where it ends, too. -/
def Legible {α β : Type} (behind : List Char → Prop) (proper : α → Prop) (write : α → List Char)
    (key : α → β) : Prop :=
  ∀ ⦃first second : α⦄, proper first → proper second →
    ReadAlike behind (write first) (write second) (key first = key second)

/-- Runs of name characters end at the first character that continues no name. -/
theorem append_run_inj {run run' rest rest' : List Char} (hrun : ∀ c ∈ run, isNameChar c = true)
    (hrun' : ∀ c ∈ run', isNameChar c = true) (hrest : rest.head?.any isNameChar = false)
    (hrest' : rest'.head?.any isNameChar = false) (h : run ++ rest = run' ++ rest') :
    run = run' ∧ rest = rest' := by
  constructor
  · rw [← takeWhile_run hrun hrest, h, takeWhile_run hrun' hrest']
  · rw [← dropWhile_run hrun hrest, h, dropWhile_run hrun' hrest']

/-- Behind an item stands a separator or what stands behind them all. -/
theorem Legible.behind_separated {α : Type} {behind : List Char → Prop} {write : α → List Char}
    {sign : Char} {more : List Char} (hsign : ∀ rest, behind (sign :: (more ++ rest)))
    {items : List α} {rest : List Char} (hrest : behind rest) :
    behind ((items.flatMap fun item => sign :: (more ++ write item)) ++ rest) := by
  cases items with
  | nil => exact hrest
  | cons item items =>
    rw [List.flatMap_cons, List.cons_append, List.cons_append, List.append_assoc, List.append_assoc]
    exact hsign _

/-- Items with a separator in front of each are legible together, if a separator ends an item and
what stands behind them does not begin like a separator. -/
theorem Legible.separated {α β : Type} {behind : List Char → Prop} {proper : α → Prop}
    {write : α → List Char} {key : α → β} (h : Legible behind proper write key) {sign : Char}
    {more : List Char} (hsign : ∀ rest, behind (sign :: (more ++ rest))) :
    Legible (fun rest => behind rest ∧ rest.head? ≠ some sign)
      (fun items => ∀ item ∈ items, proper item)
      (fun items => items.flatMap fun item => sign :: (more ++ write item)) (List.map key) := by
  intro first second hproper hproper' rest rest' hrest hrest' heq
  simp only at heq
  -- Where one list ends and the other goes on, a separator would be what stands behind them.
  induction first generalizing second with
  | nil =>
    cases second with
    | nil => exact ⟨rfl, heq⟩
    | cons item' items' =>
      rw [List.flatMap_nil, List.nil_append] at heq
      exact absurd (congrArg List.head? heq) hrest.2
  | cons item items ih =>
    cases second with
    | nil =>
      rw [List.flatMap_nil, List.nil_append] at heq
      exact absurd (congrArg List.head? heq.symm) hrest'.2
    | cons item' items' =>
      obtain ⟨hitem, hitems⟩ := List.forall_mem_cons.1 hproper
      obtain ⟨hitem', hitems'⟩ := List.forall_mem_cons.1 hproper'
      simp only [List.flatMap_cons, List.cons_append, List.append_assoc, List.cons.injEq,
        List.append_cancel_left_eq, true_and] at heq
      obtain ⟨hkey, heq⟩ := h hitem hitem' (behind_separated hsign hrest.1)
        (behind_separated hsign hrest'.1) heq
      obtain ⟨hkeys, hsame⟩ := ih hitems hitems' heq
      exact ⟨by rw [List.map_cons, List.map_cons, hkey, hkeys], hsame⟩

/-- Behind the first item every item has a separator in front. -/
theorem intercalate_cons {α : Type} (between first : List α) (rest : List (List α)) :
    between.intercalate (first :: rest) = first ++ rest.flatMap (between ++ ·) := by
  induction rest generalizing first with
  | nil => simp
  | cons next rest ih => rw [List.intercalate_cons_cons, ih, List.flatMap_cons, List.append_assoc,
    List.append_assoc]

/-- **Legible items with separators between them are legible together.** -/
theorem Legible.intercalate {α β : Type} {behind : List Char → Prop} {proper : α → Prop}
    {write : α → List Char} {key : α → β} (h : Legible behind proper write key) {sign : Char}
    {more : List Char} (hsign : ∀ rest, behind (sign :: (more ++ rest))) :
    Legible (fun rest => behind rest ∧ rest.head? ≠ some sign)
      (fun items => items ≠ [] ∧ ∀ item ∈ items, proper item)
      (fun items => (sign :: more).intercalate (items.map write)) (List.map key) := by
  rintro (_ | ⟨item, items⟩) (_ | ⟨item', items'⟩) ⟨hfirst, hproper⟩ ⟨hsecond, hproper'⟩ rest rest'
    hrest hrest' heq
  all_goals try contradiction
  simp only [List.map_cons, intercalate_cons, List.flatMap_map, List.append_assoc] at heq
  obtain ⟨hitem, hitems⟩ := List.forall_mem_cons.1 hproper
  obtain ⟨hitem', hitems'⟩ := List.forall_mem_cons.1 hproper'
  obtain ⟨hkey, heq⟩ := h hitem hitem' (Legible.behind_separated hsign hrest.1)
    (Legible.behind_separated hsign hrest'.1) heq
  obtain ⟨hkeys, hsame⟩ := h.separated hsign hitems hitems' hrest hrest' heq
  exact ⟨by rw [List.map_cons, List.map_cons, hkey, hkeys], hsame⟩

/-! ## Trees between delimiters -/

/-- What stands before, between and behind two parts. -/
structure Brackets where
  before : List Char
  between : List Char
  behind : List Char

/-- Two parts between brackets. -/
def Brackets.around (brackets : Brackets) (first second : List Char) : List Char :=
  brackets.before ++ (first ++ (brackets.between ++ (second ++ brackets.behind)))

theorem Brackets.around_append (brackets : Brackets) (first second rest : List Char) :
    brackets.around first second ++ rest =
      brackets.before ++
        (first ++ (brackets.between ++ (second ++ (brackets.behind ++ rest)))) := by
  simp [around]

/-- **What is between brackets is read part by part.** -/
theorem ReadAlike.around {behind : List Char → Prop} {brackets : Brackets}
    {first first' second second' : List Char} {same same' : Prop}
    (hfirst : ReadAlike behind first first' same) (hsecond : ReadAlike behind second second' same')
    (hbetween : ∀ rest, behind (brackets.between ++ rest))
    (hbehind : ∀ rest, behind rest → behind (brackets.behind ++ rest)) :
    ReadAlike behind (brackets.around first second) (brackets.around first' second')
      (same ∧ same') := by
  intro rest rest' hrest hrest' h
  rw [Brackets.around_append, Brackets.around_append, List.append_cancel_left_eq] at h
  obtain ⟨hsame, h⟩ := hfirst (hbetween _) (hbetween _) h
  rw [List.append_cancel_left_eq] at h
  obtain ⟨hsame', h⟩ := hsecond (hbehind _ hrest) (hbehind _ hrest') h
  rw [List.append_cancel_left_eq] at h
  exact ⟨⟨hsame, hsame'⟩, h⟩

/-- What a notation puts around names, functions, applications and definitions. -/
structure Delimiters where
  beforeName : List Char
  behindName : List Char
  function : Brackets
  application : Brackets
  definition : Brackets

/-- A name written with some delimiters. -/
def Name.write (delimiters : Delimiters) (name : Name) : List Char :=
  delimiters.beforeName ++ (name.text.toList ++ delimiters.behindName)

/-- An expression written with some delimiters. -/
def Expr.write (delimiters : Delimiters) : Expr → List Char
  | .var name => name.write delimiters
  | .lam _ parameter body _ =>
    delimiters.function.around (parameter.write delimiters) (body.write delimiters)
  | .app callee argument _ =>
    delimiters.application.around (callee.write delimiters) (argument.write delimiters)

/-- A definition written with some delimiters. -/
def Definition.write (delimiters : Delimiters) (definition : Definition) : List Char :=
  delimiters.definition.around (definition.name.write delimiters)
    (definition.expression.write delimiters)

/-- All names of the expression are words. -/
def Expr.Proper (expr : Expr) : Prop := ∀ name ∈ expr.names, IsRun name.text.toList

/-- All names of the definition are words. -/
def Definition.Proper (definition : Definition) : Prop :=
  ∀ name ∈ definition.name :: definition.expression.names, IsRun name.text.toList

/-- All names of the program are words. -/
def Program.Proper (program : Program) : Prop := ∀ name ∈ program.names, IsRun name.text.toList

namespace Delimiters

/-- What may stand behind a name, so that it is seen where the name ends. -/
def Ends (delimiters : Delimiters) (rest : List Char) : Prop :=
  (delimiters.behindName ++ rest).head?.any isNameChar = false

/-- Names end where they are written, and the first character of an expression tells its kind. -/
structure Telling (delimiters : Delimiters) (kind : Char → Option NodeKind) : Prop where
  ends_between : ∀ brackets ∈ [delimiters.function, delimiters.application, delimiters.definition],
    ∀ rest, delimiters.Ends (brackets.between ++ rest)
  ends_behind : ∀ brackets ∈ [delimiters.function, delimiters.application, delimiters.definition],
    ∀ rest, delimiters.Ends rest → delimiters.Ends (brackets.behind ++ rest)
  name : ∀ c, isNameStart c = true → ((delimiters.beforeName ++ [c]).head?.map kind) = some none
  function : delimiters.function.before.head?.map kind = some (some .function)
  application : delimiters.application.before.head?.map kind = some (some .application)

end Delimiters

section Delimiters

variable {delimiters : Delimiters} {kind : Char → Option NodeKind}

theorem Name.legible_write (delimiters : Delimiters) :
    Legible delimiters.Ends (fun name : Name => IsRun name.text.toList) (Name.write delimiters)
      (·.relabel .textsOnly) := by
  intro first second hfirst hsecond rest rest' hrest hrest' h
  simp only [Name.write, List.append_assoc, List.append_cancel_left_eq] at h
  obtain ⟨htext, h⟩ := append_run_inj hfirst.isNameChar hsecond.isNameChar hrest hrest' h
  rw [List.append_cancel_left_eq] at h
  exact ⟨congrArg (Name.mk ⟨0⟩ · ⟨0, 0⟩) (String.toList_inj.1 htext), h⟩

/-- The first character of an expression tells its kind. -/
theorem Expr.map_kind_write (hd : delimiters.Telling kind) {expr : Expr} (h : expr.Proper)
    (rest : List Char) : (expr.write delimiters ++ rest).head?.map kind = some expr.node.kind? := by
  cases expr with
  | var name =>
    obtain ⟨first, more, htext, hfirst, _⟩ := h name (by simp [names])
    have hname := hd.name first hfirst
    rw [List.head?_append] at hname
    simp only [write, Name.write, htext, List.append_assoc, List.cons_append, List.head?_append,
      List.head?_cons]
    exact hname
  | lam id parameter body span =>
    have hfunction := hd.function
    rw [write, Brackets.around_append, List.head?_append]
    cases hbefore : delimiters.function.before.head? with
    | none => simp [hbefore] at hfunction
    | some c =>
      rw [hbefore] at hfunction
      exact hfunction
  | app callee argument span =>
    have happlication := hd.application
    rw [write, Brackets.around_append, List.head?_append]
    cases hbefore : delimiters.application.before.head? with
    | none => simp [hbefore] at happlication
    | some c =>
      rw [hbefore] at happlication
      exact happlication

/-- Expressions whose texts begin alike are of one kind. -/
theorem Expr.kind?_eq_of_write (hd : delimiters.Telling kind) {first second : Expr}
    (hfirst : first.Proper) (hsecond : second.Proper) {rest rest' : List Char}
    (h : first.write delimiters ++ rest = second.write delimiters ++ rest') :
    first.node.kind? = second.node.kind? := by
  have hhead := congrArg (fun chars => chars.head?.map kind) h
  simpa only [map_kind_write hd hfirst, map_kind_write hd hsecond, Option.some.injEq] using hhead

/-- **Expressions between telling delimiters are legible.** -/
theorem Expr.legible_write (hd : delimiters.Telling kind) :
    Legible delimiters.Ends Expr.Proper (Expr.write delimiters) (·.relabel .textsOnly) := by
  intro first second hfirst hsecond
  induction first generalizing second with
  | var name =>
    intro rest rest' hrest hrest' h
    cases second with
    | var name' =>
      obtain ⟨hname, hsame⟩ := Name.legible_write delimiters (hfirst name (by simp [names]))
        (hsecond name' (by simp [names])) hrest hrest' h
      exact ⟨congrArg Expr.var hname, hsame⟩
    | lam | app => cases kind?_eq_of_write hd hfirst hsecond h
  | lam id parameter body span ih =>
    intro rest rest' hrest hrest' h
    cases second with
    | lam id' parameter' body' span' =>
      obtain ⟨hparameter, hbody⟩ := List.forall_mem_cons.1 hfirst
      obtain ⟨hparameter', hbody'⟩ := List.forall_mem_cons.1 hsecond
      obtain ⟨⟨hsame, hsame'⟩, hrest⟩ :=
        (Name.legible_write delimiters hparameter hparameter').around (ih hbody hbody')
          (hd.ends_between _ (by simp)) (hd.ends_behind _ (by simp)) hrest hrest' h
      exact ⟨congrArg₂ (Expr.lam ⟨0⟩ · · ⟨0, 0⟩) hsame hsame', hrest⟩
    | var | app => cases kind?_eq_of_write hd hfirst hsecond h
  | app callee argument span ihc iha =>
    intro rest rest' hrest hrest' h
    cases second with
    | app callee' argument' span' =>
      obtain ⟨hcallee, hargument⟩ := List.forall_mem_append.1 hfirst
      obtain ⟨hcallee', hargument'⟩ := List.forall_mem_append.1 hsecond
      obtain ⟨⟨hsame, hsame'⟩, hrest⟩ := (ihc hcallee hcallee').around (iha hargument hargument')
        (hd.ends_between _ (by simp)) (hd.ends_behind _ (by simp)) hrest hrest' h
      exact ⟨congrArg₂ (Expr.app · · ⟨0, 0⟩) hsame hsame', hrest⟩
    | var | lam => cases kind?_eq_of_write hd hfirst hsecond h

/-- **Definitions between telling delimiters are legible.** -/
theorem Definition.legible_write (hd : delimiters.Telling kind) :
    Legible delimiters.Ends Definition.Proper (Definition.write delimiters)
      (·.relabel .textsOnly) := by
  intro first second hfirst hsecond rest rest' hrest hrest' h
  obtain ⟨hname, hexpression⟩ := List.forall_mem_cons.1 hfirst
  obtain ⟨hname', hexpression'⟩ := List.forall_mem_cons.1 hsecond
  obtain ⟨⟨hsame, hsame'⟩, hrest⟩ :=
    (Name.legible_write delimiters hname hname').around
      (Expr.legible_write hd hexpression hexpression') (hd.ends_between _ (by simp))
      (hd.ends_behind _ (by simp)) hrest hrest' h
  exact ⟨congrArg₂ (Definition.mk · · ⟨0, 0⟩) hsame hsame', hrest⟩

end Delimiters

/-! ## The two notations -/

/-- The delimiters of lambda text. -/
def lambdaDelimiters : Delimiters where
  beforeName := []
  behindName := []
  function := ⟨['λ'], ['.'], []⟩
  application := ⟨['('], [' '], [')']⟩
  definition := ⟨"def".toList ++ [' '], [' ', '=', ' '], []⟩

/-- The delimiters of structure text. -/
def structureDelimiters : Delimiters where
  beforeName := "Name(".toList
  behindName := [')']
  function := ⟨"Function(".toList, [',', ' '], [')']⟩
  application := ⟨"Application(".toList, [',', ' '], [')']⟩
  definition := ⟨"Definition(".toList, [',', ' '], [')']⟩

/-- What the first character of an expression's lambda text says. -/
def lambdaKind (c : Char) : Option NodeKind :=
  if c = 'λ' then some .function else if c = '(' then some .application else none

/-- What the first character of an expression's structure text says. -/
def structureKind (c : Char) : Option NodeKind :=
  if c = 'F' then some .function else if c = 'A' then some .application else none

theorem not_isNameChar_close : isNameChar ')' = false :=
  not_isNameChar_of_symbol (rfl : TokenKind.ofSymbol? ')' = some .closeParen)

theorem telling_lambdaDelimiters : lambdaDelimiters.Telling lambdaKind where
  ends_between brackets hmem rest := by
    have hdot : isNameChar '.' = false :=
      not_isNameChar_of_symbol (rfl : TokenKind.ofSymbol? '.' = some .dot)
    have hspace : isNameChar ' ' = false := not_isNameChar_of_blank (by decide)
    simp only [lambdaDelimiters, List.mem_cons, List.not_mem_nil, or_false] at hmem
    rcases hmem with rfl | rfl | rfl
    · exact hdot
    · exact hspace
    · exact hspace
  ends_behind brackets hmem rest hrest := by
    simp only [lambdaDelimiters, List.mem_cons, List.not_mem_nil, or_false] at hmem
    rcases hmem with rfl | rfl | rfl
    · exact hrest
    · exact not_isNameChar_close
    · exact hrest
  name c hc := by
    have hlambda : c ≠ 'λ' := by
      rintro rfl
      exact absurd hc (by decide +kernel)
    have hopen : c ≠ '(' := by
      rintro rfl
      exact absurd hc (by decide +kernel)
    simp [lambdaDelimiters, lambdaKind, hlambda, hopen]
  function := by decide
  application := by decide

/-- In structure text a parenthesis stands behind every name. -/
theorem ends_structureDelimiters (rest : List Char) : structureDelimiters.Ends rest :=
  not_isNameChar_close

theorem telling_structureDelimiters : structureDelimiters.Telling structureKind where
  ends_between _ _ _ := ends_structureDelimiters _
  ends_behind _ _ _ _ := ends_structureDelimiters _
  name _ _ := rfl
  function := rfl
  application := rfl

theorem Expr.toList_toLambda (expr : Expr) :
    expr.toLambda.toList = expr.write lambdaDelimiters := by
  induction expr with
  | var name => simp [toLambda, write, Name.write, lambdaDelimiters]
  | lam id parameter body span ih =>
    simp [toLambda, write, Name.write, Brackets.around, ih, lambdaDelimiters]
  | app callee argument span ihc iha =>
    simp [toLambda, write, Brackets.around, ihc, iha, lambdaDelimiters]

theorem Name.toList_toStructure (name : Name) :
    name.toStructure.toList = name.write structureDelimiters := by
  rw [toStructure, String.toList_append, String.toList_append, List.append_assoc]
  rfl

/-- A text made of two parts as structure text makes it. -/
theorem toList_around (opening first second : String) :
    (opening ++ first ++ ", " ++ second ++ ")").toList =
      Brackets.around ⟨opening.toList, [',', ' '], [')']⟩ first.toList second.toList := by
  simp [Brackets.around]

theorem Expr.toList_toStructure (expr : Expr) :
    expr.toStructure.toList = expr.write structureDelimiters := by
  induction expr with
  | var name => exact name.toList_toStructure
  | lam id parameter body span ih =>
    have htext := toList_around "Function(" parameter.toStructure body.toStructure
    rwa [parameter.toList_toStructure, ih] at htext
  | app callee argument span ihc iha =>
    have htext := toList_around "Application(" callee.toStructure argument.toStructure
    rwa [ihc, iha] at htext

theorem Definition.toList_toLambda (definition : Definition) :
    definition.toLambda.toList = definition.write lambdaDelimiters := by
  simp [toLambda, write, Expr.toList_toLambda, Name.write, Brackets.around, lambdaDelimiters]

theorem Definition.toList_toStructure (definition : Definition) :
    definition.toStructure.toList = definition.write structureDelimiters := by
  have htext := toList_around "Definition(" definition.name.toStructure
    definition.expression.toStructure
  rwa [Name.toList_toStructure, Expr.toList_toStructure] at htext

/-! ## Lines -/

/-- Nothing, or the next line. -/
def AtLineEnd (rest : List Char) : Prop := rest = [] ∨ rest.head? = some '\n'

theorem ends_of_atLineEnd {rest : List Char} (h : AtLineEnd rest) : lambdaDelimiters.Ends rest := by
  have hbreak : isNameChar '\n' = false := not_isNameChar_of_blank (by decide)
  show rest.head?.any isNameChar = false
  rcases h with rfl | h
  · rfl
  · rw [h]
    exact hbreak

theorem Legible.mono {α β : Type} {behind behind' : List Char → Prop} {proper : α → Prop}
    {write : α → List Char} {key : α → β} (h : Legible behind proper write key)
    (hbehind : ∀ rest, behind' rest → behind rest) : Legible behind' proper write key :=
  fun _ _ hfirst hsecond _ _ hrest hrest' =>
    h hfirst hsecond (hbehind _ hrest) (hbehind _ hrest')

/-- Things of two sorts whose texts never begin alike are legible together. -/
theorem Legible.sum {α α' β β' : Type} {behind : List Char → Prop} {proper : α → Prop}
    {write : α → List Char} {key : α → β} {proper' : α' → Prop} {write' : α' → List Char}
    {key' : α' → β'} (h : Legible behind proper write key)
    (h' : Legible behind proper' write' key')
    (hapart : ∀ first second, proper first → proper' second → ∀ rest rest', behind rest' →
      write first ++ rest ≠ write' second ++ rest') :
    Legible behind (Sum.elim proper proper') (Sum.elim write write') (Sum.map key key') := by
  rintro (first | first) (second | second) hfirst hsecond rest rest' hrest hrest' heq
  · obtain ⟨hkey, hsame⟩ := h hfirst hsecond hrest hrest' heq
    exact ⟨congrArg Sum.inl hkey, hsame⟩
  · exact absurd heq (hapart _ _ hfirst hsecond _ _ hrest')
  · exact absurd heq.symm (hapart _ _ hsecond hfirst _ _ hrest)
  · obtain ⟨hkey, hsame⟩ := h' hfirst hsecond hrest hrest' heq
    exact ⟨congrArg Sum.inr hkey, hsame⟩

/-- **Lines that are legible and not empty are legible together.** -/
theorem Legible.lines {α β : Type} {proper : α → Prop} {write : α → List Char} {key : α → β}
    (h : Legible AtLineEnd proper write key) (hne : ∀ line, proper line → write line ≠ [])
    {first second : List α} (hfirst : ∀ line ∈ first, proper line)
    (hsecond : ∀ line ∈ second, proper line)
    (heq : ['\n'].intercalate (first.map write) = ['\n'].intercalate (second.map write)) :
    first.map key = second.map key := by
  have hbreak (rest : List Char) : AtLineEnd ('\n' :: ([] ++ rest)) := .inr rfl
  have hend : AtLineEnd [] ∧ ([] : List Char).head? ≠ some '\n' := ⟨.inl rfl, by simp⟩
  have hempty {line : α} {lines : List α} (hline : proper line)
      (hnil : ['\n'].intercalate ((line :: lines).map write) = []) : False := by
    rw [List.map_cons, intercalate_cons, List.append_eq_nil_iff] at hnil
    exact hne line hline hnil.1
  cases first with
  | nil =>
    cases second with
    | nil => rfl
    | cons line' lines' => exact (hempty (hsecond line' List.mem_cons_self) heq.symm).elim
  | cons line lines =>
    cases second with
    | nil => exact (hempty (hfirst line List.mem_cons_self) heq).elim
    | cons line' lines' =>
      exact (h.intercalate hbreak ⟨List.cons_ne_nil _ _, hfirst⟩ ⟨List.cons_ne_nil _ _, hsecond⟩
        hend hend (congrArg (· ++ []) heq)).1

/-- Two lists, the second behind the first, are found again if their items are of two sorts. -/
theorem map_sum_inj {α α' β β' : Type} {key : α → β} {key' : α' → β'} {first second : List α}
    {first' second' : List α'}
    (h : (first.map Sum.inl ++ first'.map Sum.inr).map (Sum.map key key') =
      (second.map Sum.inl ++ second'.map Sum.inr).map (Sum.map key key')) :
    first.map key = second.map key ∧ first'.map key' = second'.map key' := by
  have hleft := congrArg (List.filterMap Sum.getLeft?) h
  have hright := congrArg (List.filterMap Sum.getRight?) h
  simp only [List.map_append, List.map_map, List.filterMap_append, List.filterMap_map]
    at hleft hright
  constructor
  · simpa [Function.comp_def] using hleft
  · simpa [Function.comp_def] using hright

/-! ## Programs -/

namespace Program

variable {program : Program}

theorem Proper.definition (h : program.Proper) {definition : Definition}
    (hmem : definition ∈ program.definitions) : definition.Proper :=
  fun name hname => h name (List.mem_append_left _ (List.mem_flatMap.2 ⟨definition, hmem, hname⟩))

theorem Proper.expression (h : program.Proper) {expression : Expr}
    (hmem : expression ∈ program.expression.toList) : expression.Proper :=
  fun name hname => h name (List.mem_append_right _ (List.mem_flatMap.2 ⟨expression, hmem, hname⟩))

/-- The lines of lambda text: the definitions, then the trailing expression. -/
def lambdaLines (program : Program) : List (Definition ⊕ Expr) :=
  program.definitions.map .inl ++ program.expression.toList.map .inr

end Program

/-- The blocks of definitions that make a line of structure text: all in one, if there are any. -/
def blocks : List Definition → List (List Definition)
  | [] => []
  | definitions => [definitions]

theorem flatten_blocks (definitions : List Definition) :
    (blocks definitions).flatten = definitions := by
  cases definitions with
  | nil => rfl
  | cons definition rest => exact List.append_nil _

theorem eq_of_mem_blocks {definitions block : List Definition} (h : block ∈ blocks definitions) :
    block = definitions ∧ block ≠ [] := by
  cases definitions with
  | nil => cases h
  | cons definition rest =>
    obtain rfl := List.mem_singleton.1 h
    exact ⟨rfl, List.cons_ne_nil _ _⟩

/-- The lines of structure text: the definitions, if there are any, then the trailing expression. -/
def Program.structureLines (program : Program) : List (List Definition ⊕ Expr) :=
  (blocks program.definitions).map .inl ++ program.expression.toList.map .inr

/-- What a line of definitions begins with. -/
def blockOpening : List Char := "DefinitionList(".toList

/-- Some definitions as a line of structure text. -/
def writeBlock (definitions : List Definition) : List Char :=
  blockOpening ++
    ([',', ' '].intercalate (definitions.map (·.write structureDelimiters)) ++ [')'])

theorem Program.toList_toLambda (program : Program) :
    program.toLambda.toList = ['\n'].intercalate (program.lambdaLines.map
      (Sum.elim (Definition.write lambdaDelimiters) (Expr.write lambdaDelimiters))) := by
  simp [toLambda, lambdaLines, String.toList_intercalate, Definition.toList_toLambda,
    Expr.toList_toLambda, Function.comp_def]

theorem map_toList_definitionLines (definitions : List Definition) :
    (definitionLines definitions).map String.toList = (blocks definitions).map writeBlock := by
  have hmap (definitions : List Definition) :
      (definitions.map (·.toStructure)).map String.toList =
        definitions.map (·.write structureDelimiters) := by
    rw [List.map_map]
    exact List.map_congr_left fun definition _ => definition.toList_toStructure
  have hcomma : ", ".toList = [',', ' '] := by simp
  have hclose : ")".toList = [')'] := by simp
  cases definitions with
  | nil => rfl
  | cons definition rest =>
    have hline (definitions : List Definition) :
        ("DefinitionList(" ++ ", ".intercalate (definitions.map (·.toStructure)) ++ ")").toList =
          writeBlock definitions := by
      rw [String.toList_append, String.toList_append, String.toList_intercalate, hmap, hcomma,
        hclose]
      exact List.append_assoc _ _ _
    exact congrArg (fun line => [line]) (hline (definition :: rest))

theorem Program.toList_toStructure (program : Program) :
    program.toStructure.toList = ['\n'].intercalate (program.structureLines.map
      (Sum.elim writeBlock (Expr.write structureDelimiters))) := by
  have hbreak : "\n".toList = ['\n'] := by simp
  have hexpression : (fun expr : Expr => expr.toStructure.toList) =
      fun expr => expr.write structureDelimiters := funext Expr.toList_toStructure
  rw [toStructure, String.toList_intercalate, hbreak, List.map_append, map_toList_definitionLines,
    structureLines, List.map_append, List.map_map, List.map_map, List.map_map]
  simp only [Function.comp_def, hexpression, Sum.elim_inl, Sum.elim_inr]

theorem Expr.write_ne_nil {delimiters : Delimiters} {kind : Char → Option NodeKind}
    (hd : delimiters.Telling kind) {expr : Expr} (h : expr.Proper) :
    expr.write delimiters ≠ [] := by
  intro hnil
  have hkind := Expr.map_kind_write hd h []
  simp [hnil] at hkind

/-- A definition and an expression never begin alike as lines of lambda text: a name that is spelled
like the keyword has the line to itself. -/
theorem write_definition_append_ne {definition : Definition} {expr : Expr} (h : expr.Proper)
    {rest rest' : List Char} (hrest' : AtLineEnd rest') :
    definition.write lambdaDelimiters ++ rest ≠ expr.write lambdaDelimiters ++ rest' := by
  intro heq
  obtain ⟨more, hdefinition⟩ : ∃ more, definition.write lambdaDelimiters ++ rest =
      "def".toList ++ (' ' :: more) :=
    ⟨_, by rw [Definition.write, Brackets.around_append, lambdaDelimiters, List.append_assoc]; rfl⟩
  rw [hdefinition] at heq
  have hkind := Expr.map_kind_write telling_lambdaDelimiters h rest'
  rw [← heq] at hkind
  have hletter : some (lambdaKind 'd') = some expr.node.kind? := hkind
  cases expr with
  | lam | app => simp [lambdaKind, Expr.node, Node.kind?] at hletter
  | var name =>
    -- The keyword and the name end at one character, but only behind the keyword is a blank.
    have hname := (h name (by simp [Expr.names])).isNameChar
    have hspace : (' ' :: more).head?.any isNameChar = false :=
      not_isNameChar_of_blank (by decide : isBlank ' ' = true)
    have hwrite : (Expr.var name).write lambdaDelimiters = name.text.toList := by
      simp [Expr.write, Name.write, lambdaDelimiters]
    rw [hwrite] at heq
    have hend : rest'.head?.any isNameChar = false := ends_of_atLineEnd hrest'
    obtain ⟨_, hsame⟩ := append_run_inj isRun_def.isNameChar hname hspace hend heq
    rcases hrest' with rfl | hbreak
    · cases hsame
    · rw [← hsame] at hbreak
      simp at hbreak

/-- **The lines of lambda text are legible.** -/
theorem legible_lambdaLine :
    Legible AtLineEnd (Sum.elim Definition.Proper Expr.Proper)
      (Sum.elim (Definition.write lambdaDelimiters) (Expr.write lambdaDelimiters))
      (Sum.map (·.relabel .textsOnly) (·.relabel .textsOnly)) := by
  apply Legible.sum
  · exact (Definition.legible_write telling_lambdaDelimiters).mono fun _ => ends_of_atLineEnd
  · exact (Expr.legible_write telling_lambdaDelimiters).mono fun _ => ends_of_atLineEnd
  · intro definition expr _ hexpr rest rest' hrest'
    exact write_definition_append_ne hexpr hrest'

/-- Definitions with separators between them are legible, with a parenthesis behind them. -/
theorem legible_definitionItems :
    Legible (fun rest => structureDelimiters.Ends rest ∧ rest.head? ≠ some ',')
      (fun definitions => definitions ≠ [] ∧ ∀ definition ∈ definitions, definition.Proper)
      (fun definitions => [',', ' '].intercalate
        (definitions.map (Definition.write structureDelimiters)))
      (List.map (Definition.relabel .textsOnly)) :=
  (Definition.legible_write telling_structureDelimiters).intercalate
    fun _ => ends_structureDelimiters _

/-- Some definitions are legible as a line of structure text. -/
theorem legible_writeBlock (behind : List Char → Prop) :
    Legible behind (fun definitions => definitions ≠ [] ∧ ∀ definition ∈ definitions,
      definition.Proper) writeBlock (List.map (Definition.relabel .textsOnly)) := by
  intro first second hfirst hsecond rest rest' _ _ h
  simp only [writeBlock, List.append_assoc, List.append_cancel_left_eq] at h
  have hclose (rest : List Char) : structureDelimiters.Ends ([')'] ++ rest) ∧
      ([')'] ++ rest).head? ≠ some ',' := ⟨ends_structureDelimiters _, by simp⟩
  obtain ⟨hkeys, hsame⟩ :=
    legible_definitionItems hfirst hsecond (hclose rest) (hclose rest') h
  exact ⟨hkeys, List.append_cancel_left hsame⟩

/-- **The lines of structure text are legible.** -/
theorem legible_structureLine :
    Legible AtLineEnd
      (Sum.elim (fun definitions => definitions ≠ [] ∧ ∀ definition ∈ definitions,
        definition.Proper) Expr.Proper)
      (Sum.elim writeBlock (Expr.write structureDelimiters))
      (Sum.map (List.map (Definition.relabel .textsOnly)) (Expr.relabel .textsOnly)) := by
  refine Legible.sum (legible_writeBlock AtLineEnd)
    ((Expr.legible_write telling_structureDelimiters).mono fun _ _ => ends_structureDelimiters _) ?_
  intro definitions expr _ _ rest rest' _ heq
  have hblock : (writeBlock definitions ++ rest).head? = some 'D' := rfl
  have hexpr : (expr.write structureDelimiters ++ rest').head? ∈
      [some 'N', some 'F', some 'A'] := by
    cases expr with
    | var name => exact List.mem_cons_self
    | lam id parameter body span => exact List.mem_cons_of_mem _ List.mem_cons_self
    | app callee argument span =>
      exact List.mem_cons_of_mem _ (List.mem_cons_of_mem _ List.mem_cons_self)
  rw [← heq, hblock] at hexpr
  exact absurd hexpr (by decide)

/-! ## Telling programs apart -/

/-- The names of a program that was read are words. -/
theorem proper_of_parse {source : String} {program : LinkedProgram}
    (h : parse source = .ok program) : program.Proper := by
  obtain ⟨tokens, hscan, hparse⟩ := exists_scan_of_parse h
  intro name hname
  exact isRun_of_mem_names hscan hparse hname

theorem Name.toStructure_relabel {r : Relabelling} (h : ∀ text, r.text text = text) (name : Name) :
    (name.relabel r).toStructure = name.toStructure := by
  simp only [relabel, toStructure, h]

theorem Expr.toStructure_relabel {r : Relabelling} (h : ∀ text, r.text text = text) (expr : Expr) :
    (expr.relabel r).toStructure = expr.toStructure := by
  induction expr with
  | var name => exact name.toStructure_relabel h
  | lam id parameter body span ih =>
    exact congrArg₂ ("Function(" ++ · ++ ", " ++ · ++ ")") (parameter.toStructure_relabel h) ih
  | app callee argument span ihc iha =>
    exact congrArg₂ ("Application(" ++ · ++ ", " ++ · ++ ")") ihc iha

/-- In every line of lambda text the names are words. -/
theorem Program.Proper.lambdaLines {program : Program} (h : program.Proper) :
    ∀ line ∈ program.lambdaLines, Sum.elim Definition.Proper Expr.Proper line := by
  simp only [Program.lambdaLines, List.forall_mem_append, List.forall_mem_map, Sum.elim_inl,
    Sum.elim_inr]
  exact ⟨fun _ => h.definition, fun _ => h.expression⟩

/-- In every line of structure text the names are words, and a line of definitions has some. -/
theorem Program.Proper.structureLines {program : Program} (h : program.Proper) :
    ∀ line ∈ program.structureLines, Sum.elim (fun definitions => definitions ≠ [] ∧
      ∀ definition ∈ definitions, definition.Proper) Expr.Proper line := by
  simp only [Program.structureLines, List.forall_mem_append, List.forall_mem_map, Sum.elim_inl,
    Sum.elim_inr]
  refine ⟨fun block hmem => ?_, fun _ => h.expression⟩
  obtain ⟨rfl, hne⟩ := eq_of_mem_blocks hmem
  exact ⟨hne, fun _ => h.definition⟩

namespace Program

variable {program other : Program}

/-- The shape and the texts of a program are those of its definitions and its trailing
expression. -/
theorem relabel_textsOnly_of_parts
    (hdefinitions : program.definitions.map (Definition.relabel .textsOnly) =
      other.definitions.map (Definition.relabel .textsOnly))
    (hexpression : program.expression.toList.map (Expr.relabel .textsOnly) =
      other.expression.toList.map (Expr.relabel .textsOnly)) :
    program.relabel .textsOnly = other.relabel .textsOnly := by
  have hoption := congrArg List.head? hexpression
  simp only [List.head?_map, Option.head?_toList] at hoption
  exact congrArg₂ Program.mk hdefinitions hoption

/-- **Programs of one lambda text have one shape and the same texts.** -/
theorem relabel_textsOnly_of_toLambda (h : program.Proper) (h' : other.Proper)
    (htext : program.toLambda = other.toLambda) :
    program.relabel .textsOnly = other.relabel .textsOnly := by
  have hne (line : Definition ⊕ Expr) (hline : Sum.elim Definition.Proper Expr.Proper line) :
      Sum.elim (Definition.write lambdaDelimiters) (Expr.write lambdaDelimiters) line ≠ [] := by
    cases line with
    | inl definition => simp [Definition.write, Brackets.around, lambdaDelimiters]
    | inr expr => exact expr.write_ne_nil telling_lambdaDelimiters hline
  have hlines := legible_lambdaLine.lines hne h.lambdaLines h'.lambdaLines
    (by rw [← toList_toLambda, ← toList_toLambda, htext])
  obtain ⟨hdefinitions, hexpression⟩ := map_sum_inj hlines
  exact relabel_textsOnly_of_parts hdefinitions hexpression

/-- **Programs of one structure text have one shape and the same texts.** -/
theorem relabel_textsOnly_of_toStructure (h : program.Proper) (h' : other.Proper)
    (htext : program.toStructure = other.toStructure) :
    program.relabel .textsOnly = other.relabel .textsOnly := by
  have hne (line : List Definition ⊕ Expr) (hline : Sum.elim (fun definitions => definitions ≠ [] ∧
      ∀ definition ∈ definitions, definition.Proper) Expr.Proper line) :
      Sum.elim writeBlock (Expr.write structureDelimiters) line ≠ [] := by
    cases line with
    | inl definitions => exact List.cons_ne_nil _ _
    | inr expr => exact expr.write_ne_nil telling_structureDelimiters hline
  have hlines := legible_structureLine.lines hne h.structureLines h'.structureLines
    (by rw [← toList_toStructure, ← toList_toStructure, htext])
  obtain ⟨hblocks, hexpression⟩ := map_sum_inj hlines
  have hdefinitions := congrArg List.flatten hblocks
  rw [← List.map_flatten, ← List.map_flatten, flatten_blocks, flatten_blocks] at hdefinitions
  exact relabel_textsOnly_of_parts hdefinitions hexpression

/-- The structure text of a program does not depend on its spans and identities. -/
theorem toStructure_relabel {r : Relabelling} (h : ∀ text, r.text text = text)
    (program : Program) : (program.relabel r).toStructure = program.toStructure := by
  have hdefinition (definition : Definition) :
      (definition.relabel r).toStructure = definition.toStructure :=
    congrArg₂ ("Definition(" ++ · ++ ", " ++ · ++ ")")
      (definition.name.toStructure_relabel h) (definition.expression.toStructure_relabel h)
  have hdefinitions : definitionLines (program.definitions.map (·.relabel r)) =
      definitionLines program.definitions := by
    cases program.definitions with
    | nil => rfl
    | cons definition rest =>
      simp only [definitionLines, List.map_cons, List.map_map, Function.comp_def, hdefinition]
  have hexpression (expression : Expr) :
      (expression.relabel r).toStructure = expression.toStructure :=
    expression.toStructure_relabel h
  unfold toStructure
  rw [relabel, hdefinitions]
  cases program.expression <;> simp [hexpression]

/-- A program whose names are words is told by either of its texts. -/
theorem toLambda_eq_iff (h : program.Proper) (h' : other.Proper) :
    program.toLambda = other.toLambda ↔ program.relabel .textsOnly = other.relabel .textsOnly := by
  refine ⟨relabel_textsOnly_of_toLambda h h', fun htexts => ?_⟩
  have hkeeps (text : String) : Relabelling.textsOnly.text text = text := rfl
  rw [← toLambda_relabel hkeeps program, htexts, toLambda_relabel hkeeps]

theorem toStructure_eq_iff (h : program.Proper) (h' : other.Proper) :
    program.toStructure = other.toStructure ↔
      program.relabel .textsOnly = other.relabel .textsOnly := by
  refine ⟨relabel_textsOnly_of_toStructure h h', fun htexts => ?_⟩
  have hkeeps (text : String) : Relabelling.textsOnly.text text = text := rfl
  rw [← toStructure_relabel hkeeps program, htexts, toStructure_relabel hkeeps]

end Program

/-- **Either text tells programs apart.** Two programs that were read from texts have the same
lambda text exactly if they have the same structure text; exactly if they have one shape and the
same texts; and exactly if they are equal up to their spans, identities and tables included. -/
theorem texts_tell_programs_apart {source source' : String} {program other : LinkedProgram}
    (h : parse source = .ok program) (h' : parse source' = .ok other) :
    (program.toLambda = other.toLambda ↔ program.toStructure = other.toStructure) ∧
    (program.toLambda = other.toLambda ↔
      program.toProgram.relabel .textsOnly = other.toProgram.relabel .textsOnly) ∧
    (program.toLambda = other.toLambda ↔
      program.relabel .forgetSpans = other.relabel .forgetSpans) := by
  have hlambda := Program.toLambda_eq_iff (proper_of_parse h) (proper_of_parse h')
  have hstructure := Program.toStructure_eq_iff (proper_of_parse h) (proper_of_parse h')
  refine ⟨hlambda.trans hstructure.symm, hlambda, ?_⟩
  constructor
  · intro htext
    obtain ⟨tokens, _, hparse⟩ := exists_scan_of_parse h
    obtain ⟨tokens', _, hparse'⟩ := exists_scan_of_parse h'
    exact Cursor.relabel_forgetSpans_of_textsOnly hparse hparse' (hlambda.1 htext)
  · intro hsame
    have hkeeps (text : String) : Relabelling.forgetSpans.text text = text := rfl
    have htree : program.toProgram.relabel .forgetSpans = other.toProgram.relabel .forgetSpans :=
      congrArg LinkedProgram.toProgram hsame
    rw [← Program.toLambda_relabel hkeeps program.toProgram, htree,
      Program.toLambda_relabel hkeeps]

/-- A name spelled like the keyword stands before `λ`, in two layouts of one program. Two nestings
of three names have different structure texts, and so different lambda texts. -/
theorem texts_tell_programs_apart_of_keyword_and_nesting :
    (∃ program other, parse "(defλx.x)" = .ok program ∧ parse "( defλ x .x)" = .ok other ∧
      program ≠ other ∧ program.toStructure = other.toStructure ∧
      program.relabel .forgetSpans = other.relabel .forgetSpans) ∧
    ∃ program other, parse "((f g) h)" = .ok program ∧ parse "(f (g h))" = .ok other ∧
      program.toLambda ≠ other.toLambda ∧
      program.relabel .forgetSpans ≠ other.relabel .forgetSpans := by
  constructor
  · have hread : (parse "(defλx.x)").toOption.map
          (fun read => (read.toLambda, read.names.map (·.span)))
        = some ("(def λx.x)", [⟨1, 4⟩, ⟨6, 7⟩, ⟨8, 9⟩]) := by decide +kernel
    have hread' : (parse "( defλ x .x)").toOption.map
          (fun read => (read.toLambda, read.names.map (·.span)))
        = some ("(def λx.x)", [⟨2, 5⟩, ⟨8, 9⟩, ⟨11, 12⟩]) := by decide +kernel
    obtain ⟨program, h, hknown⟩ := exists_ok_of_toOption hread
    obtain ⟨other, h', hknown'⟩ := exists_ok_of_toOption hread'
    obtain ⟨hlambda, hspans⟩ := Prod.mk.inj hknown
    obtain ⟨hlambda', hspans'⟩ := Prod.mk.inj hknown'
    have htext : program.toLambda = other.toLambda := hlambda.trans hlambda'.symm
    obtain ⟨hstructure, _, hequal⟩ := texts_tell_programs_apart h h'
    refine ⟨program, other, h, h', ?_, hstructure.1 htext, hequal.1 htext⟩
    rintro rfl
    exact absurd (hspans.symm.trans hspans') (by decide)
  · have hread : (parse "((f g) h)").toOption.map (·.toStructure) =
        some "Application(Application(Name(f), Name(g)), Name(h))" := by decide +kernel
    have hread' : (parse "(f (g h))").toOption.map (·.toStructure) =
        some "Application(Name(f), Application(Name(g), Name(h)))" := by decide +kernel
    obtain ⟨program, h, hprogram⟩ := exists_ok_of_toOption hread
    obtain ⟨other, h', hother⟩ := exists_ok_of_toOption hread'
    obtain ⟨hstructure, _, hequal⟩ := texts_tell_programs_apart h h'
    have htext : program.toLambda ≠ other.toLambda := by
      rw [Ne, hstructure, hprogram, hother]
      decide
    exact ⟨program, other, h, h', htext, fun hsame => htext (hequal.2 hsame)⟩

end ScopedLambda
