import ScopedLambda.LambdaText
import ScopedLambda.Proofs.Language
import ScopedLambda.Proofs.Pieces

/-!
# How printed programs are read

Lambda text puts a symbol or a blank between any two names, so it falls into pieces that are read
one after the other. What comes out is the outline of the tree with every symbol spelled out; only
a name that is spelled like the keyword is taken for the keyword.

* `Token.entry` — the kind and the lexeme of a token.
* `ReadsAs` — a text that is read as certain kinds and lexemes, wherever it stands.
* `IsRun` — the spelling of a word.
* `printed` — the kind and the lexeme that an entry of an outline is read as.

Principal results: `Expr.readsAs_toLambda`, `Program.readsAs_toLambda` — the lambda text of a tree
whose names are words is read as its outline.
-/

set_option autoImplicit false

namespace ScopedLambda

open Text

/-! ## Reading pieces -/

/-- The kind and the lexeme of a token: all but its place. -/
def Token.entry (token : Token) : TokenKind × String := (token.kind, token.lexeme)

/-- A text that is read as tokens of these kinds and lexemes, wherever it stands. -/
def ReadsAs (chars : List Char) (entries : List (TokenKind × String)) : Prop :=
  ∀ offset, ∃ tokens, scanFrom offset chars = .ok tokens ∧ tokens.map Token.entry = entries

namespace ReadsAs

theorem nil : ReadsAs [] [] := fun _ => ⟨[], by rw [scanFrom], rfl⟩

/-- **Parted texts are read as the entries of both.** -/
theorem append {first second : List Char} {entries entries' : List (TokenKind × String)}
    (h : Parted first second) (hfirst : ReadsAs first entries) (hsecond : ReadsAs second entries') :
    ReadsAs (first ++ second) (entries ++ entries') := by
  intro offset
  obtain ⟨tokens, hscan, rfl⟩ := hfirst offset
  obtain ⟨tokens', hscan', rfl⟩ := hsecond (offset + utf8Length first)
  refine ⟨tokens ++ tokens', ?_, List.map_append⟩
  rw [scanFrom_append h, hscan]
  show joined (offset + utf8Length first) second tokens = _
  rw [joined, hscan']
  rfl

theorem blank {c : Char} (h : isBlank c = true) : ReadsAs [c] [] := by
  intro offset
  refine ⟨[], ?_, rfl⟩
  rw [scanFrom, if_pos h, scanFrom]

theorem symbol {c : Char} {kind : TokenKind} (h : TokenKind.ofSymbol? c = some kind) :
    ReadsAs [c] [(kind, String.ofList [c])] := by
  intro offset
  refine ⟨[Token.spelled kind offset [c]], ?_, rfl⟩
  rw [scanFrom, not_blank_of_symbol h, h, scanFrom]
  rfl

/-- A blank in front is passed over. -/
theorem cons_blank {c : Char} {chars : List Char} {entries : List (TokenKind × String)}
    (hc : isBlank c = true) (h : ReadsAs chars entries) : ReadsAs (c :: chars) entries :=
  append (parted_of_last (not_isNameChar_of_blank hc) chars : Parted ([] ++ [c]) chars)
    (blank hc) h

/-- A symbol in front is a token by itself. -/
theorem cons_symbol {c : Char} {kind : TokenKind} {chars : List Char}
    {entries : List (TokenKind × String)} (hc : TokenKind.ofSymbol? c = some kind)
    (h : ReadsAs chars entries) : ReadsAs (c :: chars) ((kind, String.ofList [c]) :: entries) :=
  append (parted_of_last (not_isNameChar_of_symbol hc) chars : Parted ([] ++ [c]) chars)
    (symbol hc) h

/-- What is followed by a symbol other than `λ`, or by a blank of ASCII, is read by itself. -/
theorem append_cons {c : Char} {first second : List Char}
    {entries entries' : List (TokenKind × String)} (hc : isNameChar c = false)
    (hhides : hidesKeyword c = false) (hfirst : ReadsAs first entries)
    (hsecond : ReadsAs (c :: second) entries') :
    ReadsAs (first ++ c :: second) (entries ++ entries') :=
  append (parted_of_head hc hhides first second) hfirst hsecond

end ReadsAs

/-! ## Words -/

/-- A letter, and after it characters that continue a name. -/
def IsRun (chars : List Char) : Prop :=
  ∃ first rest, chars = first :: rest ∧ isNameStart first = true ∧
    ∀ c ∈ rest, isNameChar c = true

/-- The keyword is spelled like a word. -/
theorem isRun_def : IsRun "def".toList := by
  refine ⟨'d', ['e', 'f'], rfl, by decide +kernel, ?_⟩
  intro c hmem
  simp only [List.mem_cons, List.not_mem_nil, or_false] at hmem
  rcases hmem with rfl | rfl <;> decide +kernel

/-- The lexeme of a kind that has only one. -/
def TokenKind.lexeme : TokenKind → String
  | keyword => "def"
  | name => ""
  | lambda => "λ"
  | dot => "."
  | equals => "="
  | openParen => "("
  | closeParen => ")"

/-- The kind and the lexeme that an entry of an outline is read as when it is printed. -/
def printed (entry : TokenKind × Option String) : TokenKind × String :=
  match entry with
  | (kind, none) => (kind, kind.lexeme)
  | (kind, some text) => (if text = "def" then .keyword else kind, text)

theorem runKind_none (text : String) :
    runKind text.toList none = if text = "def" then .keyword else .name := by
  have hdef : text.toList = ['d', 'e', 'f'] ↔ text = "def" := by
    rw [← String.toList_inj]
    rfl
  simp [runKind, hdef]

/-- A word is read as a name, or as the keyword if it is spelled like that. -/
theorem ReadsAs.name {text : String} (h : IsRun text.toList) :
    ReadsAs text.toList [printed (.name, some text)] := by
  intro offset
  obtain ⟨first, rest, htext, hfirst, hrest⟩ := h
  have hkind := runKind_none text
  have hrun := takeWhile_run hrest (rfl : ([] : List Char).head?.any isNameChar = false)
  have hafter := dropWhile_run hrest (rfl : ([] : List Char).head?.any isNameChar = false)
  rw [List.append_nil] at hrun hafter
  have hname := isNameChar_of_isNameStart hfirst
  refine ⟨[Token.spelled (runKind text.toList none) offset text.toList], ?_, ?_⟩
  · rw [htext, scanFrom, not_blank_of_isNameChar hname, not_symbol_of_isNameChar hname]
    simp only [Bool.false_eq_true, if_false, hfirst, if_true]
    rw [hrun, hafter, scanFrom]
    rfl
  · simp [Token.entry, Token.spelled, printed, hkind]

/-! ## Lambda text -/

theorem not_hidesKeyword_of_ascii {c : Char} (hc : c ≠ 'λ') (hascii : c.toNat < 128) :
    hidesKeyword c = false := by
  apply Bool.eq_false_iff.2
  intro hhides
  rcases hidesKeyword_iff.1 hhides with h | ⟨_, h⟩
  · exact hc h
  · omega

/-- **The lambda text of an expression is read as its outline.** -/
theorem Expr.readsAs_toLambda {expr : Expr} (h : ∀ name ∈ expr.names, IsRun name.text.toList) :
    ReadsAs expr.toLambda.toList (expr.outline.map printed) := by
  induction expr with
  | var name => exact ReadsAs.name (h name (by simp [names]))
  | lam id parameter body span ih =>
    have hparameter := ReadsAs.name (h parameter (by simp [names]))
    have hbody := ih fun name hname => h name (by simp [names, hname])
    have htext : (Expr.lam id parameter body span).toLambda.toList =
        'λ' :: (parameter.text.toList ++ '.' :: body.toLambda.toList) := by
      simp [toLambda]
    have hdot : TokenKind.ofSymbol? '.' = some .dot := rfl
    have hlambda : TokenKind.ofSymbol? 'λ' = some .lambda := rfl
    rw [htext]
    refine ReadsAs.cons_symbol hlambda (ReadsAs.append_cons (not_isNameChar_of_symbol hdot)
      (not_hidesKeyword_of_ascii (by decide) (by decide)) hparameter ?_)
    exact ReadsAs.cons_symbol hdot hbody
  | app callee argument span ihc iha =>
    have hcallee := ihc fun name hname => h name (by simp [names, hname])
    have hargument := iha fun name hname => h name (by simp [names, hname])
    have htext : (Expr.app callee argument span).toLambda.toList =
        '(' :: (callee.toLambda.toList ++ ' ' :: (argument.toLambda.toList ++ [')'])) := by
      simp [toLambda]
    have hopen : TokenKind.ofSymbol? '(' = some .openParen := rfl
    have hclose : TokenKind.ofSymbol? ')' = some .closeParen := rfl
    have hspace : isBlank ' ' = true := by decide
    rw [htext, outline, List.map_cons, List.map_append, List.map_append]
    refine ReadsAs.cons_symbol hopen (ReadsAs.append_cons (not_isNameChar_of_blank hspace)
      (not_hidesKeyword_of_ascii (by decide) (by decide)) hcallee (ReadsAs.cons_blank hspace ?_))
    exact ReadsAs.append_cons (not_isNameChar_of_symbol hclose)
      (not_hidesKeyword_of_ascii (by decide) (by decide)) hargument (ReadsAs.symbol hclose)

theorem Definition.readsAs_toLambda {definition : Definition}
    (hname : IsRun definition.name.text.toList)
    (h : ∀ name ∈ definition.expression.names, IsRun name.text.toList) :
    ReadsAs definition.toLambda.toList (definition.outline.map printed) := by
  have htext : definition.toLambda.toList =
      "def".toList ++ ' ' :: (definition.name.text.toList ++ ' ' :: '=' :: ' ' ::
        definition.expression.toLambda.toList) := by
    simp [toLambda]
  have hspace : isBlank ' ' = true := by decide
  have hequals : TokenKind.ofSymbol? '=' = some .equals := rfl
  have hends := not_isNameChar_of_blank hspace
  have hhides : hidesKeyword ' ' = false := not_hidesKeyword_of_ascii (by decide) (by decide)
  rw [htext]
  refine ReadsAs.append_cons hends hhides (ReadsAs.name isRun_def) (ReadsAs.cons_blank hspace ?_)
  refine ReadsAs.append_cons hends hhides (ReadsAs.name hname) (ReadsAs.cons_blank hspace ?_)
  exact ReadsAs.cons_symbol hequals (ReadsAs.cons_blank hspace (Expr.readsAs_toLambda h))

/-- Lines are read one after the other. -/
theorem ReadsAs.lines {lines : List (String × List (TokenKind × String))}
    (h : ∀ line ∈ lines, ReadsAs line.1.toList line.2) :
    ReadsAs ("\n".intercalate (lines.map (·.1))).toList (lines.flatMap (·.2)) := by
  induction lines with
  | nil => exact ReadsAs.nil
  | cons line rest ih =>
    have hline := h line List.mem_cons_self
    have hrest := ih fun other hother => h other (List.mem_cons_of_mem _ hother)
    cases rest with
    | nil => simpa using hline
    | cons next rest =>
      have hbreak : isBlank '\n' = true := by decide
      have htext : ("\n".intercalate ((line :: next :: rest).map (·.1))).toList =
          line.1.toList ++ '\n' :: ("\n".intercalate ((next :: rest).map (·.1))).toList := by
        simp [String.intercalate_cons_cons]
      rw [htext, List.flatMap_cons]
      exact ReadsAs.append_cons (not_isNameChar_of_blank hbreak)
        (not_hidesKeyword_of_ascii (by decide) (by decide)) hline (ReadsAs.cons_blank hbreak hrest)

/-- **The lambda text of a program is read as its outline.** -/
theorem Program.readsAs_toLambda {program : Program}
    (h : ∀ name ∈ program.names, IsRun name.text.toList) :
    ReadsAs program.toLambda.toList (program.outline.map printed) := by
  let lines : List (String × List (TokenKind × String)) :=
    program.definitions.map (fun definition =>
      (definition.toLambda, definition.outline.map printed)) ++
    program.expression.toList.map (fun expression =>
      (expression.toLambda, expression.outline.map printed))
  have htext : program.toLambda = "\n".intercalate (lines.map (·.1)) := by
    simp [toLambda, lines, Function.comp_def]
  have hentries : program.outline.map printed = lines.flatMap (·.2) := by
    simp [outline, lines, List.map_flatMap, List.flatMap_map]
  rw [htext, hentries]
  apply ReadsAs.lines
  intro line hline
  rcases List.mem_append.1 hline with hline | hline
  · obtain ⟨definition, hmem, rfl⟩ := List.mem_map.1 hline
    have hnames (name : Name) (hname : name ∈ definition.name :: definition.expression.names) :
        IsRun name.text.toList :=
      h name (List.mem_append_left _ (List.mem_flatMap.2 ⟨definition, hmem, hname⟩))
    apply Definition.readsAs_toLambda (hnames _ List.mem_cons_self)
    intro name hname
    exact hnames name (List.mem_cons_of_mem _ hname)
  · obtain ⟨expression, hmem, rfl⟩ := List.mem_map.1 hline
    apply Expr.readsAs_toLambda
    intro name hname
    exact h name (List.mem_append_right _ (List.mem_flatMap.2 ⟨expression, hmem, hname⟩))

end ScopedLambda
