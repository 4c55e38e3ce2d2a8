import ScopedLambda.Proofs.Tiling

/-!
# Reading a text piece by piece

Two texts put one after the other are read like each by itself, if no run goes on from the first
into the second and the second does not hide a keyword at the end of the first.

* `Parted` — that condition, which holds for one of two reasons: the first text does not end in a
  run, or the second begins with a character that ends runs and hides nothing.

Principal result: `scanFrom_append` — the reading of such a text, refusals included.
-/

set_option autoImplicit false

namespace ScopedLambda

open Text

/-- No run goes on from the first text into the second, and no keyword is hidden there. -/
def Parted (first second : List Char) : Prop :=
  (∀ c, first.getLast? = some c → isNameChar c = false) ∨
    ∀ c, second.head? = some c → isNameChar c = false ∧ hidesKeyword c = false

theorem Parted.of_cons {c : Char} {first second : List Char} (h : Parted (c :: first) second) :
    Parted first second := by
  rcases h with h | h
  · refine .inl fun last hlast => h last ?_
    rw [List.getLast?_cons, hlast]
    rfl
  · exact .inr h

theorem Parted.of_append {passed first second : List Char} (h : Parted (passed ++ first) second) :
    Parted first second := by
  induction passed with
  | nil => exact h
  | cons c passed ih => exact ih h.of_cons

/-- A symbol or a blank is parted from whatever follows it. -/
theorem parted_of_last {first : List Char} {c : Char} (h : isNameChar c = false)
    (second : List Char) : Parted (first ++ [c]) second := by
  left
  intro last hlast
  obtain rfl : c = last := by simpa using hlast
  exact h

/-- A symbol other than `λ`, or a blank of ASCII, is parted from whatever comes before it. -/
theorem parted_of_head {c : Char} (h : isNameChar c = false) (hhides : hidesKeyword c = false)
    (first second : List Char) : Parted first (c :: second) := by
  right
  intro head hhead
  obtain rfl : c = head := by simpa using hhead
  exact ⟨h, hhides⟩

/-- What ends runs and hides no keyword leaves the kind of a run as it is at the end. -/
theorem runKind_of_parted {run second : List Char} (hrun : run ≠ [])
    (hchars : ∀ c ∈ run, isNameChar c = true) (h : Parted run second) :
    second.head?.any isNameChar = false ∧ runKind run second.head? = runKind run none := by
  rcases h with h | h
  · have hlast := List.getLast?_eq_some_getLast hrun
    have hname := hchars _ (List.getLast_mem hrun)
    rw [h _ hlast] at hname
    cases hname
  · cases second with
    | nil => exact ⟨rfl, rfl⟩
    | cons c second =>
      obtain ⟨hname, hhides⟩ := h c rfl
      exact ⟨by simpa using hname, by simp [runKind, hhides]⟩

/-- The result for two pieces, given that for the first. -/
def joined (offset : Nat) (second : List Char) (tokens : List Token) :
    Except LexicalError (List Token) :=
  (scanFrom offset second).map (tokens ++ ·)

theorem joined_nil (offset : Nat) (second : List Char) :
    joined offset second [] = scanFrom offset second := by
  unfold joined
  cases scanFrom offset second <;> rfl

theorem map_cons_bind_joined (token : Token) (offset : Nat) (second : List Char)
    (result : Except LexicalError (List Token)) :
    (result.map (token :: ·)).bind (joined offset second) =
      (result.bind (joined offset second)).map (token :: ·) := by
  cases result with
  | error error => rfl
  | ok tokens =>
    show joined offset second (token :: tokens) = (joined offset second tokens).map (token :: ·)
    unfold joined
    cases scanFrom offset second <;> rfl

/-- **Parted texts are read one after the other.** -/
theorem scanFrom_append {offset : Nat} {first second : List Char} (h : Parted first second) :
    scanFrom offset (first ++ second) =
      (scanFrom offset first).bind (joined (offset + utf8Length first) second) := by
  fun_induction scanFrom offset first with
  | case1 offset =>
    rw [List.nil_append, utf8Length, Nat.add_zero]
    exact (joined_nil offset second).symm
  | case2 offset c rest hblank ih =>
    rw [List.cons_append, scanFrom, if_pos hblank, ih h.of_cons, utf8Length, Nat.add_assoc]
  | case3 offset c rest hblank kind hsymbol ih =>
    rw [List.cons_append, scanFrom, if_neg hblank, hsymbol]
    simp only
    rw [ih h.of_cons, map_cons_bind_joined, utf8Length, Nat.add_assoc]
  | case4 offset c rest hblank hsymbol hstart run after =>
    rename_i ih
    have hwhole : c :: rest = run ++ after := by
      rw [List.cons_append, List.takeWhile_append_dropWhile]
    -- The run ends where it ended in the first text, and nothing new hides a keyword.
    have hend : (after ++ second).head?.any isNameChar = false ∧
        runKind run (after ++ second).head? = runKind run after.head? := by
      cases hafter : after with
      | nil =>
        rw [hwhole, hafter, List.append_nil] at h
        refine runKind_of_parted (List.cons_ne_nil _ _) ?_ h
        intro c' hmem
        rcases List.mem_cons.1 hmem with rfl | hmem
        · exact isNameChar_of_isNameStart hstart
        · exact isNameChar_of_mem_takeWhile rest c' hmem
      | cons d more =>
        have hhead := head?_dropWhile_run rest
        rw [show rest.dropWhile isNameChar = d :: more from hafter] at hhead
        exact ⟨hhead, rfl⟩
    have hrest : rest ++ second = rest.takeWhile isNameChar ++ (after ++ second) := by
      rw [← List.append_assoc, List.takeWhile_append_dropWhile]
    rw [hwhole] at h
    rw [List.cons_append, scanFrom, if_neg hblank, hsymbol]
    simp only [hstart, if_true]
    rw [hrest, takeWhile_run (isNameChar_of_mem_takeWhile rest) hend.1,
      dropWhile_run (isNameChar_of_mem_takeWhile rest) hend.1, hend.2, ih h.of_append, hwhole,
      utf8Length_append, ← Nat.add_assoc]
    exact (map_cons_bind_joined _ _ _ _).symm
  | case5 offset c rest hblank hsymbol hstart =>
    rw [List.cons_append, scanFrom, if_neg hblank, hsymbol]
    simp only [hstart]
    rfl

end ScopedLambda
