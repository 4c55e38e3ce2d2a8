/-!
# What a terminal shows of a text

A terminal prints some characters and acts on others — single control characters, and control
sequences that an escape character opens. A text that goes to a message is first reduced to what is
shown.

* `shows` — whether a character by itself is printed: white space of ASCII, the graphic characters
  of ASCII, and everything beyond ASCII.
* `Sequence` — which control sequence a text is inside of, and `Sequence.step`, how a character
  leads on from there.
* `Sequence.lets` — whether a character is printed although a sequence may be open. Inside an escape
  or control sequence white space is acted on at once, so it is printed.
* `visible` — what is shown of a text.

Once something is printed, all that follows is printed up to the next character that is not shown;
only there does a sequence that was open go on.

Principal results: `visible_eq_self` — a text of shown characters stays as it is;
`shows_of_mem_visible` — nothing else is left over.
-/

set_option autoImplicit false

namespace ScopedLambda.Text

/-- Whether a character is white space of ASCII that is acted on at once. -/
def isLayout (c : Char) : Bool := c == '\t' || c == '\n' || c == '\x0C' || c == '\r'

/-- Whether a character by itself is printed. -/
def shows (c : Char) : Bool := isLayout c || decide (32 ≤ c.toNat) && c.toNat != 127

/-- The control sequence that a text is inside of. -/
inductive Sequence where
  /-- No sequence is open. -/
  | ground
  /-- After the escape character. -/
  | escape
  /-- After the escape character and a blank or a sign below the digits. -/
  | escapeSign
  /-- A control sequence, up to a letter. -/
  | control
  /-- The start of a device control string. -/
  | deviceStart
  /-- The parameters of a device control string. -/
  | deviceParameters
  /-- The signs after the parameters of a device control string. -/
  | deviceSigns
  /-- The body of a device control string or of a privately used one. -/
  | body
  /-- A command to the operating system, up to a bell. -/
  | systemCommand
deriving DecidableEq

/-- Whether the encoding of a character holds the byte that ends the body of a string. -/
def endsBody (c : Char) : Bool := (String.utf8EncodeChar c).contains 0x9C

namespace Sequence

/-- How a character of ASCII that is no escape, cancel or substitute leads on. Characters below the
blank and the delete character leave every sequence open; all others are told apart by the columns
of the code table: signs from `' '` on, digits and parameters from `'0'`, letters from `'@'`. -/
def stepAscii (sequence : Sequence) (c : Char) : Sequence :=
  if sequence = .systemCommand then (if c = '\x07' then .ground else .systemCommand)
  else if c < ' ' ∨ c = '\x7F' then sequence
  else match sequence with
    | .escape =>
      if c < '0' then .escapeSign
      else match c with
        | '[' => .control
        | ']' => .systemCommand
        | 'P' => .deviceStart
        | 'X' | '^' | '_' => .body
        | _ => .ground
    | .escapeSign => if c < '0' then .escapeSign else .ground
    | .control => if c < '@' then .control else .ground
    | .deviceStart =>
      if c < '0' then .deviceSigns else if c < '@' then .deviceParameters else .body
    | .deviceParameters =>
      if c < '0' then .deviceSigns else if c < '<' then .deviceParameters else .body
    | .deviceSigns => if c < '0' then .deviceSigns else .body
    | other => other

/-- How a character leads on. An escape opens a sequence anywhere, cancel and substitute end every
sequence, and beyond ASCII only the end of a body counts. -/
def step (sequence : Sequence) (c : Char) : Sequence :=
  if c = '\x1B' then .escape
  else if c = '\x18' ∨ c = '\x1A' then .ground
  else if 128 ≤ c.toNat then (if sequence = .body ∧ endsBody c = true then .ground else sequence)
  else sequence.stepAscii c

/-- Whether a character is printed at this place. -/
def lets (sequence : Sequence) (c : Char) : Bool :=
  match sequence with
  | .ground => shows c
  | .escape | .escapeSign | .control => isLayout c
  | _ => false

end Sequence

/-- What is shown of the rest of a text, inside a sequence and, if `printing`, after something that
was printed. -/
def visibleFrom (printing : Bool) (sequence : Sequence) : List Char → List Char
  | [] => []
  | c :: rest =>
    if printing && shows c then
      c :: visibleFrom true (if 128 ≤ c.toNat then .ground else sequence) rest
    else if sequence.lets c then
      c :: visibleFrom true (sequence.step c) rest
    else
      visibleFrom false (sequence.step c) rest

/-- What is shown of a text. -/
def visible (text : String) : String := String.ofList (visibleFrom false .ground text.toList)

/-! ## What stays and what goes -/

theorem shows_of_lets {sequence : Sequence} {c : Char} (h : sequence.lets c = true) :
    shows c = true := by
  unfold Sequence.lets at h
  split at h
  · exact h
  · simp [shows, h]
  · simp [shows, h]
  · simp [shows, h]
  · cases h

/-- **Only shown characters are left.** -/
theorem shows_of_mem_visibleFrom {printing : Bool} {sequence : Sequence} {chars : List Char} :
    ∀ c ∈ visibleFrom printing sequence chars, shows c = true := by
  induction chars generalizing printing sequence with
  | nil => simp [visibleFrom]
  | cons first rest ih =>
    intro c hc
    unfold visibleFrom at hc
    split at hc
    · rename_i hshown
      rcases List.mem_cons.1 hc with rfl | hc
      · exact (Bool.and_eq_true _ _ ▸ hshown).2
      · exact ih c hc
    · split at hc
      · rename_i hlets
        rcases List.mem_cons.1 hc with rfl | hc
        · exact shows_of_lets hlets
        · exact ih c hc
      · exact ih c hc

theorem shows_of_mem_visible {text : String} {c : Char} (h : c ∈ (visible text).toList) :
    shows c = true := by
  rw [visible, String.toList_ofList] at h
  exact shows_of_mem_visibleFrom c h

theorem visibleFrom_printing_eq_self {sequence : Sequence} {chars : List Char}
    (h : ∀ c ∈ chars, shows c = true) : visibleFrom true sequence chars = chars := by
  induction chars generalizing sequence with
  | nil => rfl
  | cons first rest ih =>
    have hfirst := h first (.head _)
    have hrest : ∀ c ∈ rest, shows c = true := fun c hc => h c (.tail _ hc)
    simp [visibleFrom, hfirst, ih hrest]

/-- **A text of shown characters stays as it is.** -/
theorem visible_eq_self {text : String} (h : ∀ c ∈ text.toList, shows c = true) :
    visible text = text := by
  have hchars : visibleFrom false .ground text.toList = text.toList := by
    cases hlist : text.toList with
    | nil => rfl
    | cons first rest =>
      rw [hlist] at h
      have hfirst := h first (.head _)
      have hrest : ∀ c ∈ rest, shows c = true := fun c hc => h c (.tail _ hc)
      simp [visibleFrom, Sequence.lets, hfirst, visibleFrom_printing_eq_self hrest]
  rw [visible, hchars, String.ofList_toList]

end ScopedLambda.Text
