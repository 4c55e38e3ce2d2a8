import ScopedLambda.Proofs.Separators

/-!
# Texts given line by line

A line break is a blank of ASCII: it ends the run before it and hides no keyword. So what a line is
split into does not depend on the lines around it, even if it ends in a keyword or in the middle of
what would otherwise be one name, and all that the lines before it do is to move it.

* `lineStart` — the byte at which a line begins.
* `lineTokens` — the tokens of the lines, each moved to where its line begins.

Principal results: `scan_joinLines_cons` — a line, then the others behind it; `scan_lines` — the
tokens of a text are those of its lines, and its refusal is that of the first line that has one.
-/

set_option autoImplicit false

namespace ScopedLambda

/-! ## Moved by nothing, and moved twice -/

theorem Token.relabel_shift_zero (token : Token) : token.relabel (.shift 0 0 0) = token := by
  rw [relabel_shift]
  rfl

theorem Token.relabel_shift_shift (token : Token) (bytes bytes' : Nat) :
    (token.relabel (.shift bytes 0 0)).relabel (.shift bytes' 0 0) =
      token.relabel (.shift (bytes + bytes') 0 0) := by
  simp only [relabel_shift, Nat.add_assoc]

theorem LexicalError.relabel_shift_shift (error : LexicalError) (bytes bytes' : Nat) :
    (error.relabel (.shift bytes 0 0)).relabel (.shift bytes' 0 0) =
      error.relabel (.shift (bytes + bytes') 0 0) := by
  simp only [relabel, Relabelling.shift, Nat.add_assoc]

/-! ## One line before others -/

/-- **Texts with a line break between them are split into tokens one after the other.** -/
theorem scan_line_break (first second : String) :
    scan (first ++ "\n" ++ second) =
      (scan first).bind fun tokens =>
        (movedResult (first.utf8ByteSize + 1) (scan second)).map (tokens ++ ·) := by
  have hsame (tokens : List Token) :
      tokens.map (·.followedBy '\n' first.utf8ByteSize) = tokens := by
    simp only [Token.followedBy_of_not_hides (by decide : hidesKeyword '\n' = false), List.map_id']
  have hblank : ∀ c ∈ "\n".toList, Text.isBlank c = true := List.all_eq_true.1 (by decide)
  have hbreak := scan_blanks (by simp : "\n".toList = ['\n']) hblank first second
  simp only [hsame] at hbreak
  exact hbreak

/-- **A line comes before the tokens of the others, which are moved behind it.** -/
theorem scan_joinLines_cons (line : String) (rest : List String) :
    scan (joinLines (line :: rest)) =
      (scan line).bind fun tokens =>
        (movedResult (line.utf8ByteSize + 1) (scan (joinLines rest))).map (tokens ++ ·) := by
  cases rest with
  | nil =>
    have hempty : scan (joinLines []) = .ok [] := by
      show scanFrom 0 [] = _
      rw [scanFrom]
    rw [hempty, joinLines, String.intercalate_singleton]
    cases scan line with
    | error error => rfl
    | ok tokens => exact congrArg Except.ok (List.append_nil tokens).symm
  | cons next rest =>
    rw [joinLines, String.intercalate_cons_cons]
    exact scan_line_break line (joinLines (next :: rest))

/-! ## All lines -/

/-- The byte at which a line begins: behind the lines before it, each with its break. -/
def lineStart (lines : List String) (index : Nat) : Nat :=
  (lines.take index).foldr (fun line start => line.utf8ByteSize + 1 + start) 0

theorem lineStart_zero (lines : List String) : lineStart lines 0 = 0 := rfl

theorem lineStart_cons_succ (line : String) (rest : List String) (index : Nat) :
    lineStart (line :: rest) (index + 1) = lineStart rest index + (line.utf8ByteSize + 1) := by
  rw [lineStart, List.take_succ_cons, List.foldr_cons, Nat.add_comm, lineStart]

/-- The tokens of all lines, each moved to where its line begins. -/
def lineTokens (lines : List String) (tokens : List (List Token)) : List Token :=
  (tokens.mapIdx fun index own => own.map (·.relabel (.shift (lineStart lines index) 0 0))).flatten

theorem lineTokens_cons (line : String) (rest : List String) (own : List Token)
    (others : List (List Token)) :
    lineTokens (line :: rest) (own :: others) =
      own ++ (lineTokens rest others).map (·.relabel (.shift (line.utf8ByteSize + 1) 0 0)) := by
  have hown : own.map (·.relabel (.shift 0 0 0)) = own := by
    simp only [Token.relabel_shift_zero, List.map_id']
  have hothers : (others.mapIdx fun index tokens =>
        tokens.map (·.relabel (.shift (lineStart (line :: rest) (index + 1)) 0 0))) =
      (others.mapIdx fun index tokens =>
        tokens.map (·.relabel (.shift (lineStart rest index) 0 0))).map
          (List.map (·.relabel (.shift (line.utf8ByteSize + 1) 0 0))) := by
    apply List.mapIdx_eq_iff.2
    intro index
    simp only [List.getElem?_map, List.getElem?_mapIdx, Option.map_map, Function.comp_def,
      List.map_map, Token.relabel_shift_shift, lineStart_cons_succ]
  rw [lineTokens, List.mapIdx_cons, List.flatten_cons, lineStart_zero, hown, hothers, lineTokens,
    List.map_flatten]

/-- **Lines that can be split into tokens make a text of their tokens.** -/
theorem scan_joinLines_eq_ok {lines : List String} {tokens : List (List Token)}
    (h : lines.map scan = tokens.map .ok) :
    scan (joinLines lines) = .ok (lineTokens lines tokens) := by
  induction lines generalizing tokens with
  | nil =>
    obtain rfl : tokens = [] := by simpa using h.symm
    show scanFrom 0 [] = _
    rw [scanFrom]
    rfl
  | cons line rest ih =>
    obtain ⟨own, others, rfl, hline, hrest⟩ := List.map_eq_cons_iff.1 h.symm
    rw [scan_joinLines_cons, ← hline, ih hrest.symm, lineTokens_cons]
    rfl

/-- The lines of a text that can be split into tokens can be, too. -/
theorem exists_map_scan_of_scan_joinLines {lines : List String} {tokens : List Token}
    (h : scan (joinLines lines) = .ok tokens) :
    ∃ each : List (List Token), lines.map scan = each.map .ok := by
  induction lines generalizing tokens with
  | nil => exact ⟨[], rfl⟩
  | cons line rest ih =>
    rw [scan_joinLines_cons] at h
    cases hline : scan line with
    | error error =>
      rw [hline] at h
      cases h
    | ok own =>
      cases hrest : scan (joinLines rest) with
      | error error =>
        rw [hline, hrest] at h
        cases h
      | ok others =>
        obtain ⟨each, heach⟩ := ih hrest
        exact ⟨own :: each, by rw [List.map_cons, hline, heach, List.map_cons]⟩

/-- **The first line that is refused has its text refused, wherever it stands.** -/
theorem scan_joinLines_eq_error {lines : List String} {index : Nat} {line : String}
    {error : LexicalError} (hindex : lines[index]? = some line) (hline : scan line = .error error)
    (hbefore : ∀ other ∈ lines.take index, ∃ tokens, scan other = .ok tokens) :
    scan (joinLines lines) = .error (error.relabel (.shift (lineStart lines index) 0 0)) := by
  induction lines generalizing index with
  | nil => simp at hindex
  | cons first rest ih =>
    rw [scan_joinLines_cons]
    cases index with
    | zero =>
      obtain rfl : first = line := by simpa using hindex
      rw [hline]
      rfl
    | succ index =>
      rw [List.take_succ_cons] at hbefore
      obtain ⟨tokens, htokens⟩ := hbefore first List.mem_cons_self
      have hrest := ih (by simpa using hindex) fun other hother =>
        hbefore other (List.mem_cons_of_mem _ hother)
      rw [htokens, hrest, lineStart_cons_succ, ← LexicalError.relabel_shift_shift]
      rfl

/-- A token of a text ends inside it. -/
theorem Token.PlacedIn.stop_le {text : String} {token : Token} (h : token.PlacedIn 0 text.toList) :
    token.span.stop ≤ text.utf8ByteSize := by
  obtain ⟨before, after, htext, hstart, hstop, _⟩ := h
  rw [← utf8Length_toList, htext, utf8Length_append, utf8Length_append]
  omega

/-- **Lines are split into tokens one by one.** The tokens of lines that can all be split are put
together, those of each line moved to where the line begins; otherwise the text is refused as its
first line that cannot be split is, at the place where that line has it. So a text that is given
line by line is read as a program from tokens each of which is a token of one line, with its kind
and lexeme, and stands inside that line. -/
theorem scan_lines (lines : List String) :
    (∀ tokens : List (List Token), lines.map scan = tokens.map .ok →
      scan (joinLines lines) = .ok (lineTokens lines tokens)) ∧
    (∀ index line error, lines[index]? = some line → scan line = .error error →
      (∀ other ∈ lines.take index, ∃ tokens, scan other = .ok tokens) →
      scan (joinLines lines) = .error (error.relabel (.shift (lineStart lines index) 0 0))) ∧
    ∀ tokens, scan (joinLines lines) = .ok tokens →
      parse (joinLines lines) = (Cursor.ofTokens tokens).parse ∧
      ∀ token ∈ tokens, ∃ index line own original, lines[index]? = some line ∧
        scan line = .ok own ∧ original ∈ own ∧
        token.kind = original.kind ∧ token.lexeme = original.lexeme ∧
        token.span.start = lineStart lines index + original.span.start ∧
        token.span.stop = lineStart lines index + original.span.stop ∧
        token.span.stop ≤ lineStart lines index + line.utf8ByteSize := by
  refine ⟨fun tokens h => scan_joinLines_eq_ok h, fun index line error hindex hline hbefore =>
    scan_joinLines_eq_error hindex hline hbefore, ?_⟩
  intro tokens h
  refine ⟨parse_eq_of_scan h, ?_⟩
  obtain ⟨each, heach⟩ := exists_map_scan_of_scan_joinLines h
  rw [scan_joinLines_eq_ok heach] at h
  obtain rfl := Except.ok.inj h
  intro token hmem
  obtain ⟨moved, hmoved, hmem⟩ := List.mem_flatten.1 hmem
  obtain ⟨index, hindex, rfl⟩ := List.mem_mapIdx.1 hmoved
  obtain ⟨original, horiginal, rfl⟩ := List.mem_map.1 hmem
  have hscan : (lines.map scan)[index]? = some (.ok each[index]) := by
    rw [heach, List.getElem?_map, List.getElem?_eq_getElem hindex, Option.map_some]
  rw [List.getElem?_map] at hscan
  obtain ⟨line, hline, hown⟩ := Option.map_eq_some_iff.1 hscan
  have hplaced := (scanFrom_eq_ok_iff.1 hown).placed original horiginal
  rw [Token.relabel_shift]
  refine ⟨index, line, each[index], original, hline, hown, horiginal, rfl, rfl, Nat.add_comm _ _,
    Nat.add_comm _ _, ?_⟩
  show original.span.stop + lineStart lines index ≤ lineStart lines index + line.utf8ByteSize
  have := hplaced.stop_le
  omega

/-- A keyword at the end of a line stays one, and a name does not go on in the next line. -/
example :
    scan (joinLines ["def", "é", "é"]) =
      .ok [⟨.keyword, "def", ⟨0, 3⟩⟩, ⟨.name, "é", ⟨4, 6⟩⟩, ⟨.name, "é", ⟨7, 9⟩⟩] := by
  decide +kernel

end ScopedLambda
