import ScopedLambda.Journal
import ScopedLambda.Proofs.Legibility

/-!
# Lines of the journal

A line of the journal says what its entry says. Only identities are left out: of a name, where the
text and the span stand for it, and of the two functions of a shadowing.

* `EndsRun` — what may stand behind a word or a number.
* `headings` — the levels and areas under which lines are written.
* `Entry.Proper` — the texts in an entry are words.
* `Entry.shown` — an entry without what its line leaves out.

Principal results: `legible_number`, `Span.legible_render`, `Binder.legible_render` — the parts of a
message can be read off it; `Entry.render_eq_iff` — two lines are the same exactly if the entries
show the same.
-/

set_option autoImplicit false

namespace ScopedLambda

open Text

/-! ## Parts of a message -/

/-- What may stand behind a word or a number, so that it is seen where it ends. -/
def EndsRun (rest : List Char) : Prop := rest.head?.any isNameChar = false

theorem not_isNameChar_quote : isNameChar '\'' = false := by decide +kernel

theorem not_isNameChar_space : isNameChar ' ' = false := not_isNameChar_of_blank (by decide)

theorem isNameChar_of_mem_toString {n : Nat} {c : Char} (h : c ∈ (toString n).toList) :
    isNameChar c = true := by
  rw [Nat.toString_eq_repr, Nat.toList_repr] at h
  exact isNameChar_of_isDigit (Nat.isDigit_of_mem_toDigits (by decide) (by decide) h)

/-- **A number can be read off its digits.** -/
theorem legible_number :
    Legible EndsRun (fun _ : Nat => True) (fun n => (toString n).toList) id := by
  intro first second _ _ rest rest' hrest hrest' h
  obtain ⟨hdigits, hsame⟩ := append_run_inj (fun _ => isNameChar_of_mem_toString)
    (fun _ => isNameChar_of_mem_toString) hrest hrest' h
  rw [Nat.toString_eq_repr, Nat.toString_eq_repr, Nat.toList_repr, Nat.toList_repr] at hdigits
  have hvalue := congrArg (fun digits => Nat.ofDigitChars 10 digits 0) hdigits
  simp only [Nat.ofDigitChars_toDigits (by decide : 1 < 10) (by decide : 10 ≤ 10)] at hvalue
  exact ⟨hvalue, hsame⟩

theorem number_eq_of_append {first second : Nat} {behind : List Char}
    (h : (toString first).toList ++ behind = (toString second).toList ++ behind)
    (hbehind : EndsRun behind) : first = second :=
  (legible_number trivial trivial hbehind hbehind h).1

theorem Span.legible_render :
    Legible EndsRun (fun _ : Span => True) (fun span => span.render.toList) id := by
  rintro ⟨start, stop⟩ ⟨start', stop'⟩ _ _ rest rest' hrest hrest' h
  simp only [Span.render, String.toList_append, List.append_assoc] at h
  have hdot (more : List Char) : EndsRun ("..".toList ++ more) :=
    not_isNameChar_of_symbol (rfl : TokenKind.ofSymbol? '.' = some .dot)
  obtain ⟨hstart, h⟩ := legible_number trivial trivial (hdot _) (hdot _) h
  rw [List.append_cancel_left_eq] at h
  obtain ⟨hstop, hsame⟩ := legible_number trivial trivial hrest hrest' h
  exact ⟨congrArg₂ Span.mk hstart hstop, hsame⟩

/-- A word in quotes and where it stands can be read off a message. -/
theorem quoted_inj {text text' : String} {span span' : Span} {rest rest' : List Char}
    (h : text.toList ++ ("' at ".toList ++ (span.render.toList ++ rest)) =
      text'.toList ++ ("' at ".toList ++ (span'.render.toList ++ rest')))
    (htext : IsRun text.toList) (htext' : IsRun text'.toList) (hrest : EndsRun rest)
    (hrest' : EndsRun rest') : text = text' ∧ span = span' ∧ rest = rest' := by
  have hquote (more : List Char) : EndsRun ("' at ".toList ++ more) := not_isNameChar_quote
  obtain ⟨hsame, hplace⟩ :=
    append_run_inj htext.isNameChar htext'.isNameChar (hquote _) (hquote _) h
  rw [List.append_cancel_left_eq] at hplace
  obtain ⟨hspan, hmore⟩ := Span.legible_render trivial trivial hrest hrest' hplace
  exact ⟨String.toList_inj.1 hsame, hspan, hmore⟩

theorem Binder.legible_render :
    Legible (fun _ => True) (fun _ : Binder => True) (fun binder => binder.render.toList) id := by
  have hclose (more : List Char) : EndsRun ("))".toList ++ more) := not_isNameChar_close
  rintro (index | ⟨index⟩) (index' | ⟨index'⟩) _ _ rest rest' _ _ h
  all_goals
    unfold render at h
    simp only [String.toList_append, List.append_assoc] at h
  · rw [List.append_cancel_left_eq] at h
    obtain ⟨hindex, h⟩ := legible_number trivial trivial (hclose _) (hclose _) h
    rw [List.append_cancel_left_eq] at h
    exact ⟨congrArg Binder.definition hindex, h⟩
  · have hhead : some 'D' = some 'F' := congrArg List.head? h
    cases hhead
  · have hhead : some 'F' = some 'D' := congrArg List.head? h
    cases hhead
  · rw [List.append_cancel_left_eq] at h
    obtain ⟨hindex, h⟩ := legible_number trivial trivial (hclose _) (hclose _) h
    rw [List.append_cancel_left_eq] at h
    exact ⟨congrArg (Binder.function ⟨·⟩) hindex, h⟩

/-! ## Headings -/

/-- What stands in front of a message. -/
def lineHeading (level : Level) (area : String) : String :=
  "[" ++ level.label ++ String.ofList (List.replicate (5 - level.label.length) ' ') ++ " " ++
    area ++ "] "

theorem Entry.render_eq_heading (entry : Entry) :
    entry.render = lineHeading entry.level entry.area ++ entry.message := rfl

/-- The levels and areas under which lines are written. -/
def headings : List (Level × String) :=
  [(.debug, "lambda_front::lexer"), (.trace, "lambda_front::scope"), (.warn, "lambda_front::scope"),
    (.debug, "lambda_front::scope"), (.debug, "lambda_front::parser")]

theorem Entry.mem_headings (entry : Entry) : (entry.level, entry.area) ∈ headings := by
  cases entry <;> simp [headings, level, area]

/-- No heading is the beginning of another. -/
theorem headings_apart : ∀ place ∈ headings, ∀ other ∈ headings,
    (lineHeading place.1 place.2).toList <+: (lineHeading other.1 other.2).toList →
      place = other := by
  decide +kernel

/-- **A line tells its level and its area, and then comes the message.** -/
theorem Entry.parts_of_render {first second : Entry} (h : first.render = second.render) :
    (first.level, first.area) = (second.level, second.area) ∧
      first.message.toList = second.message.toList := by
  rw [render_eq_heading, render_eq_heading, ← String.toList_inj, String.toList_append,
    String.toList_append] at h
  have hplace : (first.level, first.area) = (second.level, second.area) := by
    have hfirst := List.prefix_append (lineHeading first.level first.area).toList
      first.message.toList
    have hsecond := List.prefix_append (lineHeading second.level second.area).toList
      second.message.toList
    rw [h] at hfirst
    rcases List.prefix_or_prefix_of_prefix hfirst hsecond with hprefix | hprefix
    · exact headings_apart _ first.mem_headings _ second.mem_headings hprefix
    · exact (headings_apart _ second.mem_headings _ first.mem_headings hprefix).symm
  obtain ⟨hlevel, harea⟩ := Prod.mk.inj hplace
  rw [hlevel, harea, List.append_cancel_left_eq] at h
  exact ⟨hplace, h⟩

/-! ## Messages -/

/-- The texts in an entry are words. -/
def Entry.Proper : Entry → Prop
  | sighted sighting => IsRun sighting.name.text.toList
  | shadowed shadowing => IsRun shadowing.text.toList
  | _ => True

/-- An entry without the identities that its line leaves out: that of a name, and those of the two
functions of a shadowing. -/
def Entry.shown : Entry → Entry
  | sighted sighting =>
    sighted { sighting with name := ⟨⟨0⟩, sighting.name.text, sighting.name.span⟩ }
  | shadowed shadowing => shadowed { shadowing with shadowed := ⟨0⟩, shadowing := ⟨0⟩ }
  | entry => entry

/-- What the journal writes for what a use refers to. -/
theorem legible_answer :
    Legible (fun _ => True) (fun _ : Option Binder => True)
      (fun binder => (binder.elim "None" ("Some(" ++ ·.render ++ ")")).toList) id := by
  rintro (_ | binder) (_ | binder') _ _ rest rest' _ _ h
  all_goals simp only [Option.elim, String.toList_append, List.append_assoc] at h
  · exact ⟨rfl, List.append_cancel_left h⟩
  · have hhead : some 'N' = some 'S' := congrArg List.head? h
    cases hhead
  · have hhead : some 'S' = some 'N' := congrArg List.head? h
    cases hhead
  · rw [List.append_cancel_left_eq] at h
    obtain ⟨hbinder, h⟩ := Binder.legible_render trivial trivial trivial trivial h
    rw [List.append_cancel_left_eq] at h
    exact ⟨congrArg some hbinder, h⟩

namespace Entry

theorem shown_eq_of_sighted {first second : Sighting} (hfirst : (sighted first).Proper)
    (hsecond : (sighted second).Proper)
    (h : (sighted first).message.toList = (sighted second).message.toList) :
    (sighted first).shown = (sighted second).shown := by
  obtain ⟨⟨id, text, span⟩, binder, depth⟩ := first
  obtain ⟨⟨id', text', span'⟩, binder', depth'⟩ := second
  unfold message at h
  simp only [String.toList_append, List.append_assoc, List.append_cancel_left_eq] at h
  obtain ⟨rfl, rfl, hdepth⟩ := quoted_inj h hfirst hsecond not_isNameChar_space not_isNameChar_space
  rw [List.append_cancel_left_eq] at hdepth
  have hclose (more : List Char) : EndsRun (") -> ".toList ++ more) := not_isNameChar_close
  obtain ⟨rfl, hanswer⟩ := legible_number trivial trivial (hclose _) (hclose _) hdepth
  rw [List.append_cancel_left_eq] at hanswer
  obtain ⟨rfl, _⟩ := legible_answer trivial trivial trivial trivial (congrArg (· ++ []) hanswer)
  rfl

theorem shown_eq_of_shadowed {first second : Shadowing} (hfirst : (shadowed first).Proper)
    (hsecond : (shadowed second).Proper)
    (h : (shadowed first).message.toList = (shadowed second).message.toList) :
    (shadowed first).shown = (shadowed second).shown := by
  obtain ⟨text, around, inner, span⟩ := first
  obtain ⟨text', around', inner', span'⟩ := second
  unfold message at h
  simp only [String.toList_append, List.append_assoc, List.append_cancel_left_eq] at h
  obtain ⟨rfl, rfl, _⟩ := quoted_inj h hfirst hsecond not_isNameChar_space not_isNameChar_space
  rfl

/-- How many shadowings there are is not told by a message about one of them. -/
theorem message_shadowingsFound_ne (count : Nat) (shadowing : Shadowing) :
    (shadowingsFound count).message.toList ≠ (shadowed shadowing).message.toList := by
  intro h
  unfold message at h
  simp only [String.toList_append, List.append_assoc] at h
  rw [Nat.toString_eq_repr, Nat.toList_repr] at h
  obtain ⟨c, digits, hdigits⟩ := List.exists_cons_of_ne_nil (@Nat.toDigits_ne_nil count 10)
  have hdigit : c.isDigit = true := by
    apply Nat.isDigit_of_mem_toDigits (by decide : 0 < 10) (by decide)
    rw [hdigits]
    exact List.mem_cons_self
  rw [hdigits] at h
  have hhead : some c = some 'p' := congrArg List.head? h
  cases hhead
  exact absurd hdigit (by decide)

theorem shown_eq_of_linked {uses uses' definitions definitions' : Nat}
    (h : (linked uses definitions).message.toList = (linked uses' definitions').message.toList) :
    (linked uses definitions).shown = (linked uses' definitions').shown := by
  unfold message at h
  simp only [String.toList_append, List.append_assoc, List.append_cancel_left_eq] at h
  have hover (more : List Char) : EndsRun (" names over ".toList ++ more) := not_isNameChar_space
  obtain ⟨huses, hmore⟩ := legible_number trivial trivial (hover _) (hover _) h
  rw [List.append_cancel_left_eq] at hmore
  exact congrArg₂ linked huses (number_eq_of_append hmore not_isNameChar_space)

/-- Entries with one line show the same. -/
theorem shown_eq_of_render {first second : Entry} (hfirst : first.Proper)
    (hsecond : second.Proper) (h : first.render = second.render) :
    first.shown = second.shown := by
  obtain ⟨hplace, h⟩ := parts_of_render h
  cases first with
  | scanned tokens =>
    cases second with
    | scanned tokens' =>
      unfold message at h
      simp only [String.toList_append, List.append_assoc, List.append_cancel_left_eq] at h
      rw [number_eq_of_append h not_isNameChar_space]
    | _ => simp [level, area] at hplace
  | sighted sighting =>
    cases second with
    | sighted sighting' => exact shown_eq_of_sighted hfirst hsecond h
    | _ => simp [level, area] at hplace
  | shadowingsFound count =>
    cases second with
    | shadowingsFound count' =>
      unfold message at h
      simp only [String.toList_append, List.append_assoc] at h
      rw [number_eq_of_append h not_isNameChar_space]
    | shadowed shadowing => exact absurd h (message_shadowingsFound_ne count shadowing)
    | _ => simp [level, area] at hplace
  | shadowed shadowing =>
    cases second with
    | shadowed shadowing' => exact shown_eq_of_shadowed hfirst hsecond h
    | shadowingsFound count => exact absurd h.symm (message_shadowingsFound_ne count shadowing)
    | _ => simp [level, area] at hplace
  | linked uses definitions =>
    cases second with
    | linked uses' definitions' => exact shown_eq_of_linked h
    | _ => simp [level, area] at hplace
  | completed definitions =>
    cases second with
    | completed definitions' =>
      unfold message at h
      simp only [String.toList_append, List.append_assoc, List.append_cancel_left_eq] at h
      rw [number_eq_of_append h not_isNameChar_space]
    | _ => simp [level, area] at hplace

theorem render_shown (entry : Entry) : entry.shown.render = entry.render := by
  cases entry <;> rfl

/-- **Lines are the same exactly if their entries show the same.** -/
theorem render_eq_iff {first second : Entry} (hfirst : first.Proper) (hsecond : second.Proper) :
    first.render = second.render ↔ first.shown = second.shown := by
  constructor
  · exact shown_eq_of_render hfirst hsecond
  · intro h
    rw [← first.render_shown, h, render_shown]

end Entry

end ScopedLambda
