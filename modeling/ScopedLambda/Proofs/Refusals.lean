import ScopedLambda.Proofs.Slices

/-!
# Where the reading of a text stops

Whether a character may stand at a place depends on what is before it: what continues a name is in
place behind the run of a name, and nowhere else. A text is refused at its first character that is
out of place; what comes after that character is never looked at.

* `Continues` — a character that goes on with the run of a name that leads up to it.
* `Misplaced` — a character that is no blank and no symbol, begins no name and continues none.
* `WellPlaced` — a text in which no character is misplaced.
* `FirstMisplaced` — the first character of a text that is.
* `Seam` — two texts such that no run goes on from the first into the second.

Principal results: `misplaced_append_iff` — past a seam nothing depends on what is before it;
`exists_scanFrom_iff`, `scanFrom_eq_error_iff` — a text is read if all of it is in place, and
refused at the first character that is not; `refused_at_first_misplaced` — all about a refusal.
-/

set_option autoImplicit false

namespace ScopedLambda

open Text

/-! ## Characters out of place -/

/-- `c` continues a name, and `before` ends in the run of one. -/
def Continues (before : List Char) (c : Char) : Prop :=
  isNameChar c = true ∧ ∃ passed run, before = passed ++ run ∧ IsRun run

/-- Behind `before`, the character `c` is no blank and no symbol, and it neither begins a name nor
continues one. -/
structure Misplaced (before : List Char) (c : Char) : Prop where
  not_blank : isBlank c = false
  not_symbol : TokenKind.ofSymbol? c = none
  not_start : isNameStart c = false
  not_continued : ¬ Continues before c

/-- No character of a text is misplaced behind those before it. -/
def WellPlaced (text : List Char) : Prop :=
  ∀ before c after, text = before ++ c :: after → ¬ Misplaced before c

/-- A text that begins with `before` and then `c`, of which `c` is the first misplaced character. -/
structure FirstMisplaced (text before : List Char) (c : Char) : Prop where
  begins : before ++ [c] <+: text
  wellPlaced : WellPlaced before
  misplaced : Misplaced before c

theorem IsRun.isNameChar {run : List Char} (h : IsRun run) : ∀ c ∈ run, isNameChar c = true := by
  obtain ⟨first, rest, rfl, hfirst, hrest⟩ := h
  intro c hmem
  rcases List.mem_cons.1 hmem with rfl | hmem
  · exact isNameChar_of_isNameStart hfirst
  · exact hrest c hmem

/-- In the run of a name everything is in place. -/
theorem IsRun.wellPlaced {run : List Char} (h : IsRun run) : WellPlaced run := by
  obtain ⟨first, rest, rfl, hfirst, hrest⟩ := h
  intro before c after heq hmisplaced
  cases before with
  | nil =>
    obtain ⟨rfl, _⟩ := List.cons.inj heq
    exact absurd hfirst (by simp [hmisplaced.not_start])
  | cons d before =>
    obtain ⟨rfl, rfl⟩ := List.cons.inj heq
    refine hmisplaced.not_continued
      ⟨hrest c (by simp), [], first :: before, rfl, first, before, rfl, hfirst, ?_⟩
    exact fun d hmem => hrest d (List.mem_append_left _ hmem)

theorem wellPlaced_nil : WellPlaced [] := fun _ _ _ heq => by simp at heq

/-- A character that is in place at the beginning of a text makes a text in place. -/
theorem wellPlaced_singleton {c : Char} (h : ¬ Misplaced [] c) : WellPlaced [c] := by
  intro before d after heq
  obtain ⟨rfl, rfl, rfl⟩ : before = [] ∧ d = c ∧ after = [] := by
    cases before <;> simp_all
  exact h

/-! ## Seams -/

/-- No run of a name goes on from the first text into the second. -/
def Seam (first second : List Char) : Prop :=
  (∀ c, first.getLast? = some c → isNameChar c = false) ∨ second.head?.any isNameChar = false

/-- A seam before a text is one before what the text begins with. -/
theorem Seam.of_prefix {first second start : List Char} (h : Seam first second)
    (hstart : start <+: second) : Seam first start := by
  obtain ⟨more, rfl⟩ := hstart
  rcases h with hlast | hhead
  · exact .inl hlast
  · cases start with
    | nil => exact .inr rfl
    | cons c start => exact .inr hhead

/-- A character behind which no name goes on is followed by a seam. -/
theorem seam_singleton {c : Char} (h : isNameChar c = false) (second : List Char) :
    Seam [c] second := by
  left
  intro last hlast
  obtain rfl : c = last := by simpa using hlast
  exact h

/-- What ends a text and goes on into the next as one run is nothing, if there is a seam. -/
theorem Seam.eq_nil {passed more second : List Char} (h : Seam (passed ++ more) second)
    (hsecond : second ≠ []) (hnames : ∀ c ∈ more ++ second, isNameChar c = true) : more = [] := by
  by_contra hmore
  rcases h with hlast | hhead
  · have hends : (passed ++ more).getLast? = some (more.getLast hmore) := by
      rw [List.getLast?_append, List.getLast?_eq_some_getLast hmore, Option.some_or]
    have hname := hnames _ (List.mem_append_left _ (List.getLast_mem hmore))
    rw [hlast _ hends] at hname
    cases hname
  · obtain ⟨c, rest, rfl⟩ := List.exists_cons_of_ne_nil hsecond
    have hname := hnames c (by simp)
    simp [hname] at hhead

/-- **Past a seam a character continues the same names as without what is before the seam.** -/
theorem continues_append_iff {front before : List Char} {c : Char}
    (h : Seam front (before ++ [c])) : Continues (front ++ before) c ↔ Continues before c := by
  constructor
  · rintro ⟨hc, passed, run, heq, hrun⟩
    refine ⟨hc, ?_⟩
    rcases List.append_eq_append_iff.1 heq with ⟨more, _, hbefore⟩ | ⟨more, rfl, rfl⟩
    · exact ⟨more, run, hbefore, hrun⟩
    · -- The run begins before the seam, and goes on across it if it holds anything there.
      obtain rfl : more = [] := by
        refine h.eq_nil (by simp) fun d hmem => ?_
        rw [← List.append_assoc, List.mem_append, List.mem_singleton] at hmem
        rcases hmem with hmem | rfl
        · exact hrun.isNameChar d hmem
        · exact hc
      exact ⟨[], before, rfl, hrun⟩
  · rintro ⟨hc, passed, run, rfl, hrun⟩
    exact ⟨hc, front ++ passed, run, by simp, hrun⟩

/-- **Past a seam the same characters are misplaced as without what is before the seam.** -/
theorem misplaced_append_iff {front before : List Char} {c : Char}
    (h : Seam front (before ++ [c])) : Misplaced (front ++ before) c ↔ Misplaced before c := by
  have hcontinues := continues_append_iff h
  constructor
  · rintro ⟨hblank, hsymbol, hstart, hnot⟩
    exact ⟨hblank, hsymbol, hstart, fun hcontinued => hnot (hcontinues.2 hcontinued)⟩
  · rintro ⟨hblank, hsymbol, hstart, hnot⟩
    exact ⟨hblank, hsymbol, hstart, fun hcontinued => hnot (hcontinues.1 hcontinued)⟩

/-- Two texts with a seam between them are in place if each of them is. -/
theorem WellPlaced.append {front text : List Char} (hfront : WellPlaced front)
    (htext : WellPlaced text) (h : Seam front text) : WellPlaced (front ++ text) := by
  intro before c after heq hmisplaced
  rcases List.append_eq_append_iff.1 heq with ⟨more, rfl, htext'⟩ | ⟨more, hfront', hafter⟩
  · have hseam : Seam front (more ++ [c]) := h.of_prefix ⟨after, by simp [htext']⟩
    exact htext more c after htext' ((misplaced_append_iff hseam).1 hmisplaced)
  · cases more with
    | nil =>
      obtain rfl : text = c :: after := by simpa using hafter.symm
      obtain rfl : front = before := by simpa using hfront'
      have hseam : Seam front ([] ++ [c]) := h.of_prefix ⟨after, rfl⟩
      rw [← List.append_nil front] at hmisplaced
      exact htext [] c after rfl ((misplaced_append_iff hseam).1 hmisplaced)
    | cons d more =>
      obtain ⟨rfl, rfl⟩ := List.cons.inj hafter
      exact hfront before c more hfront' hmisplaced

/-- What is first misplaced past a seam is first misplaced in the whole text. -/
theorem FirstMisplaced.prepend {front text before : List Char} {c : Char}
    (h : FirstMisplaced text before c) (hfront : WellPlaced front) (hseam : Seam front text) :
    FirstMisplaced (front ++ text) (front ++ before) c where
  begins := by
    rw [List.append_assoc]
    exact List.prefix_append_right_inj front |>.2 h.begins
  wellPlaced :=
    hfront.append h.wellPlaced (hseam.of_prefix ((List.prefix_append before [c]).trans h.begins))
  misplaced := (misplaced_append_iff (hseam.of_prefix h.begins)).2 h.misplaced

/-- A text with a first misplaced character is not well placed. -/
theorem FirstMisplaced.not_wellPlaced {text before : List Char} {c : Char}
    (h : FirstMisplaced text before c) : ¬ WellPlaced text := by
  obtain ⟨after, hafter⟩ := h.begins
  intro htext
  exact htext before c after (by rw [← hafter]; simp) h.misplaced

/-- **A text has one first misplaced character at most.** -/
theorem FirstMisplaced.unique {text before before' : List Char} {c c' : Char}
    (h : FirstMisplaced text before c) (h' : FirstMisplaced text before' c') :
    before = before' ∧ c = c' := by
  -- Of the two beginnings the longer one would hold the other's misplaced character.
  have hlength {first second : List Char} {d d' : Char} (hfirst : FirstMisplaced text first d)
      (hsecond : FirstMisplaced text second d') : second.length ≤ first.length := by
    by_contra hlt
    have hbegins : first ++ [d] <+: second :=
      List.prefix_of_prefix_length_le hfirst.begins
        ((List.prefix_append second [d']).trans hsecond.begins) (by simp; omega)
    exact FirstMisplaced.not_wellPlaced ⟨hbegins, hfirst.wellPlaced, hfirst.misplaced⟩
      hsecond.wellPlaced
  have heq := (List.prefix_of_prefix_length_le h.begins h'.begins
    (by simpa using hlength h' h)).eq_of_length
      (by simpa using Nat.le_antisymm (hlength h' h) (hlength h h'))
  simpa using heq

/-! ## The scanner -/

/-- What a result says of the text at `offset`: all of it is in place, or where it is not. -/
def Judges (offset : Nat) (text : List Char) : Except LexicalError (List Token) → Prop
  | .ok _ => WellPlaced text
  | .error error =>
    ∃ before c, FirstMisplaced text before c ∧ error = .atOffset (offset + utf8Length before) c

theorem judges_map_iff {offset : Nat} {text : List Char} (f : List Token → List Token)
    {result : Except LexicalError (List Token)} :
    Judges offset text (result.map f) ↔ Judges offset text result := by
  cases result <;> exact Iff.rfl

/-- What is said of the text past a seam is said of the whole text, if the front is in place. -/
theorem Judges.prepend {offset : Nat} {front text : List Char}
    {result : Except LexicalError (List Token)}
    (h : Judges (offset + utf8Length front) text result) (hfront : WellPlaced front)
    (hseam : Seam front text) : Judges offset (front ++ text) result := by
  cases result with
  | ok tokens => exact hfront.append h hseam
  | error error =>
    obtain ⟨before, c, hfirst, rfl⟩ := h
    refine ⟨front ++ before, c, hfirst.prepend hfront hseam, ?_⟩
    rw [utf8Length_append, Nat.add_assoc]

/-- So it is past a character that is in place at the beginning and behind which no name goes on. -/
theorem Judges.cons {offset : Nat} {c : Char} {rest : List Char}
    {result : Except LexicalError (List Token)} (h : Judges (offset + c.utf8Size) rest result)
    (hc : ¬ Misplaced [] c) (hname : isNameChar c = false) : Judges offset (c :: rest) result :=
  Judges.prepend h (wellPlaced_singleton hc) (seam_singleton hname rest)

/-- **The scanner judges every text.** -/
theorem judges_scanFrom (offset : Nat) (text : List Char) :
    Judges offset text (scanFrom offset text) := by
  fun_induction scanFrom offset text with
  | case1 offset => exact wellPlaced_nil
  | case2 offset c rest hblank ih =>
    have hc : ¬ Misplaced [] c := fun hmisplaced =>
      Bool.false_ne_true (hmisplaced.not_blank.symm.trans hblank)
    exact ih.cons hc (not_isNameChar_of_blank hblank)
  | case3 offset c rest hblank kind hsymbol ih =>
    have hc : ¬ Misplaced [] c := fun hmisplaced =>
      Option.some_ne_none kind (hsymbol.symm.trans hmisplaced.not_symbol)
    exact (judges_map_iff _).2 (ih.cons hc (not_isNameChar_of_symbol hsymbol))
  | case4 offset c rest hblank hsymbol hstart run after =>
    rename_i ih
    have hrun : IsRun run := ⟨c, _, rfl, hstart, isNameChar_of_mem_takeWhile rest⟩
    have hwhole := ih.prepend hrun.wellPlaced (.inr (head?_dropWhile_run rest))
    rw [List.cons_append, List.takeWhile_append_dropWhile] at hwhole
    exact (judges_map_iff _).2 hwhole
  | case5 offset c rest hblank hsymbol hstart =>
    refine ⟨[], c, ⟨⟨rest, rfl⟩, wellPlaced_nil, ?_⟩, by rw [utf8Length, Nat.add_zero]⟩
    refine ⟨by simpa using hblank, hsymbol, by simpa using hstart, ?_⟩
    rintro ⟨_, passed, run, heq, first, more, rfl, _⟩
    simp at heq

/-- **A text is read exactly if all of it is in place.** -/
theorem exists_scanFrom_iff {offset : Nat} {text : List Char} :
    (∃ tokens, scanFrom offset text = .ok tokens) ↔ WellPlaced text := by
  have hjudges := judges_scanFrom offset text
  cases hscan : scanFrom offset text with
  | ok tokens =>
    rw [hscan] at hjudges
    exact iff_of_true ⟨tokens, rfl⟩ hjudges
  | error error =>
    rw [hscan] at hjudges
    obtain ⟨before, c, hfirst, _⟩ := hjudges
    exact iff_of_false (by simp) hfirst.not_wellPlaced

/-- **A text is refused exactly at the first of its characters that is out of place.** -/
theorem scanFrom_eq_error_iff {offset : Nat} {text : List Char} {error : LexicalError} :
    scanFrom offset text = .error error ↔
      ∃ before c, FirstMisplaced text before c ∧
        error = .atOffset (offset + utf8Length before) c := by
  have hjudges := judges_scanFrom offset text
  constructor
  · intro h
    rwa [h] at hjudges
  · rintro ⟨before, c, hfirst, rfl⟩
    cases hscan : scanFrom offset text with
    | ok tokens => exact absurd (exists_scanFrom_iff.1 ⟨tokens, hscan⟩) hfirst.not_wellPlaced
    | error other =>
      rw [hscan] at hjudges
      obtain ⟨before', c', hfirst', rfl⟩ := hjudges
      obtain ⟨rfl, rfl⟩ := hfirst.unique hfirst'
      rfl

/-- A character of a text begins behind the bytes of those before it. -/
theorem isValid_utf8Length {source : String} {before after : List Char}
    (h : source.toList = before ++ after) :
    (⟨utf8Length before⟩ : String.Pos.Raw).IsValid source := by
  refine String.Pos.Raw.isValid_iff_exists_append.2
    ⟨String.ofList before, String.ofList after, ?_, ?_⟩
  · rw [← String.toList_inj, h]
    simp
  · rw [← utf8ByteSize_ofList]
    rfl

/-- **A refusal is located exactly, and at once.** A text is refused if and only if some character
of it is misplaced: no blank and no symbol, and neither the first letter of a name nor the
continuation of a name whose run leads up to it. The refusal is of the first such character and
spans its bytes. These lie inside the text and begin where a character begins, so that the text cut
there falls into what is before that character and what begins with it. What is before it is read
by itself, and every text that begins in the same way up to that character has the same refusal. -/
theorem refused_at_first_misplaced (source : String) :
    ((∃ error, scan source = .error error) ↔
      ∃ before c after, source.toList = before ++ c :: after ∧ Misplaced before c) ∧
    ∀ error, scan source = .error error →
      ∃ before c after, source.toList = before ++ c :: after ∧ Misplaced before c ∧
        (∀ earlier d later, before = earlier ++ d :: later → ¬ Misplaced earlier d) ∧
        error.character = c ∧
        error.span = ⟨utf8Length before, utf8Length before + c.utf8Size⟩ ∧
        error.span.stop ≤ source.utf8ByteSize ∧
        (⟨error.span.start⟩ : String.Pos.Raw).IsValid source ∧
        (⟨0, error.span.start⟩ : Span).slice? source = some (String.ofList before) ∧
        (⟨error.span.start, source.utf8ByteSize⟩ : Span).slice? source =
          some (String.ofList (c :: after)) ∧
        (∃ tokens, scan (String.ofList before) = .ok tokens) ∧
        ∀ other : String, before ++ [c] <+: other.toList → scan other = .error error := by
  refine ⟨?_, ?_⟩
  · have hread : (∃ tokens, scan source = .ok tokens) ↔ WellPlaced source.toList :=
      exists_scanFrom_iff
    constructor
    · rintro ⟨error, h⟩
      obtain ⟨before, c, hfirst, _⟩ := scanFrom_eq_error_iff.1 h
      obtain ⟨after, hafter⟩ := hfirst.begins
      exact ⟨before, c, after, by rw [← hafter]; simp, hfirst.misplaced⟩
    · rintro ⟨before, c, after, heq, hmisplaced⟩
      cases hscan : scan source with
      | error error => exact ⟨error, rfl⟩
      | ok tokens => exact absurd hmisplaced (hread.1 ⟨tokens, hscan⟩ before c after heq)
  · intro error h
    obtain ⟨before, c, hfirst, rfl⟩ := scanFrom_eq_error_iff.1 h
    rw [Nat.zero_add]
    obtain ⟨after, hafter⟩ := hfirst.begins
    have hsource : source.toList = before ++ c :: after := by rw [← hafter]; simp
    have hlength : source.utf8ByteSize = utf8Length before + utf8Length (c :: after) := by
      rw [← utf8Length_append, ← hsource, utf8Length_toList]
    refine ⟨before, c, after, hsource, hfirst.misplaced, hfirst.wellPlaced, rfl, rfl,
      ?_, ?_, ?_, ?_, ?_, ?_⟩
    · rw [hlength, utf8Length, ← Nat.add_assoc]
      exact Nat.le_add_right _ _
    · exact isValid_utf8Length hsource
    · have hbegin : source.toList = [] ++ (before ++ c :: after) := hsource
      exact Span.slice?_eq hbegin rfl (by simp [LexicalError.atOffset])
    · have hend : source.toList = before ++ ((c :: after) ++ []) := by simpa using hsource
      exact Span.slice?_eq hend rfl hlength
    · obtain ⟨tokens, htokens⟩ : ∃ tokens, scanFrom 0 before = .ok tokens :=
        exists_scanFrom_iff.2 hfirst.wellPlaced
      exact ⟨tokens, by rw [scan, String.toList_ofList, htokens]⟩
    · intro other hbegins
      exact scanFrom_eq_error_iff.2 ⟨before, c, ⟨hbegins, hfirst.wellPlaced, hfirst.misplaced⟩,
        by rw [Nat.zero_add]⟩

example : scan "xⒶ λ" = .error ⟨.invalidNameStart, 'Ⓐ', ⟨1, 4⟩⟩ := by decide +kernel

end ScopedLambda
