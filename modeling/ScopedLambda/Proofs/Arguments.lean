import Mathlib.Data.List.Induction
import Mathlib.Data.List.Nodup
import Mathlib.Data.List.Perm.Basic
import ScopedLambda.Command.Arguments

/-!
# What arguments amount to

Arguments are read word by word and, inside a word, letter by letter, with a record of what has been
asked for. What decides can be said without that record: the first item that is not acceptable
behind those before it. If there is none, the order of the items does not matter.

* `Item` — one thing that arguments ask for; `items` — all of them, from left to right.
* `Item.verdict?` — what an item decides behind some others, if it decides anything.
* `Decides` — the decision on some items: by the first that has a verdict, else by all together.

Principal results: `addWords_eq` — words are read item by item; `Invocation.addItem_step` — what is
asked for is what the items are; `decideArguments_eq_iff` — the decision on arguments.
-/

set_option autoImplicit false

namespace ScopedLambda.Command

/-! ## Items -/

/-- One thing that arguments ask for. -/
inductive Item where
  | flag (flag : Flag)
  | file (name : String)
  /-- A flag that is given a value. -/
  | value (value : String) (flag : Flag)
  /-- A flag that is not known, as a message quotes it. -/
  | unknown (argument : String)
deriving DecidableEq

namespace Item

/-- The flag of a letter. -/
def ofLetter (c : Char) : Item :=
  (Flag.ofLetter? c).elim (.unknown (String.ofList ['-', c])) .flag

/-- The flag of a long name, with the value behind the first equals sign. -/
def ofLong (word : List Char) : Item :=
  let name := String.ofList (word.takeWhile (· != '='))
  match Flag.ofLong? name, word.dropWhile (· != '=') with
  | none, _ => .unknown ("--" ++ name)
  | some known, [] => .flag known
  | some known, _ :: text => .value (String.ofList text) known

/-- The items of a word: one flag by its long name, some by their letters, or a file. -/
def ofWord (word : String) : List Item :=
  match word.toList with
  | '-' :: '-' :: name => [ofLong name]
  | '-' :: c :: letters => (c :: letters).map ofLetter
  | _ => [.file word]

/-- Whether an item is a file. -/
def isFile : Item → Bool
  | .file _ => true
  | _ => false

/-- What an item decides behind the items before it. A flag that is known also has the file before
it looked at, if there is one. -/
def verdict? (before : List Item) : Item → Option Decision
  | .unknown argument => some (.refuse (.unexpectedArgument argument))
  | .value text known => some (.refuse (.unexpectedValue text known))
  | .file name =>
    if before.any (·.isFile) then some (.refuse (.unexpectedArgument name)) else none
  | .flag known =>
    if .file "" ∈ before then some (.refuse .emptyFileName)
    else match known with
      | .help => some .showHelp
      | .version => some .showVersion
      | .functional =>
        if .flag .functional ∈ before then some (.refuse (.repeatedFlag .functional)) else none

end Item

/-- What arguments ask for, from left to right. Behind `--` every word is a file. -/
def items : List String → List Item
  | [] => []
  | word :: rest => if word = "--" then rest.map .file else Item.ofWord word ++ items rest

/-- No item has a verdict behind those before it. -/
def Undecided (items : List Item) : Prop :=
  ∀ before item, before ++ [item] <+: items → item.verdict? before = none

/-- The items that an invocation consists of. -/
def Invocation.items (asked : Invocation) : List Item :=
  (if asked.functional then [.flag .functional] else []) ++ asked.file.toList.map .file

/-- The decision on some items. -/
inductive Decides (items : List Item) : Decision → Prop where
  /-- The first item with a verdict decides. -/
  | item {before : List Item} {item : Item} {decision : Decision}
    (hitem : before ++ [item] <+: items) (hbefore : Undecided before)
    (hverdict : item.verdict? before = some decision) : Decides items decision
  /-- A file without a name is noticed in the end. -/
  | emptyFile (hundecided : Undecided items) (hempty : .file "" ∈ items) :
    Decides items (.refuse .emptyFileName)
  /-- One flag at most and one file at most, in any order, are accepted. -/
  | accepted {invocation : Invocation} (hitems : items.Perm invocation.items)
    (hfile : invocation.file ≠ some "") : Decides items (.convert invocation)

/-! ## Reading item by item -/

namespace Invocation

/-- The invocation with what an item asks for. -/
def addItem (asked : Invocation) : Item → Except Decision Invocation
  | .flag flag => asked.addFlag flag
  | .file name => asked.addFile name
  | .value value flag => .error (.refuse (.unexpectedValue value flag))
  | .unknown argument => .error (.refuse (.unexpectedArgument argument))

theorem addLetters_eq (asked : Invocation) (letters : List Char) :
    asked.addLetters letters = (letters.map Item.ofLetter).foldlM addItem asked := by
  induction letters generalizing asked with
  | nil => rfl
  | cons c rest ih =>
    rw [addLetters, List.map_cons, List.foldlM_cons, Item.ofLetter]
    cases Flag.ofLetter? c with
    | none => rfl
    | some flag => exact bind_congr ih

theorem addLong_eq (asked : Invocation) (word : List Char) :
    asked.addLong word = asked.addItem (.ofLong word) := by
  unfold addLong Item.ofLong
  dsimp only
  cases Flag.ofLong? (String.ofList (word.takeWhile (· != '='))) with
  | none => rfl
  | some known => cases word.dropWhile (· != '=') <;> rfl

/-- A word other than `--` is read item by item. -/
theorem addWords_cons (asked : Invocation) {word : String} (hword : word ≠ "--")
    (rest : List String) :
    asked.addWords (word :: rest) =
      (Item.ofWord word).foldlM addItem asked >>= (·.addWords rest) := by
  have hlist : word.toList ≠ ['-', '-'] := fun h => hword (String.toList_inj.1 h)
  rw [addWords, Item.ofWord]
  split
  · contradiction
  · rename_i name _ hlong
    simp only [hlong, List.foldlM_cons, List.foldlM_nil, bind_pure, addLong_eq]
  · rename_i c letters _ _ hletters
    simp only [hletters, addLetters_eq]
  · simp only [List.foldlM_cons, List.foldlM_nil, bind_pure]
    rfl

/-- **Words are read item by item.** -/
theorem addWords_eq (asked : Invocation) (words : List String) :
    asked.addWords words = (Command.items words).foldlM addItem asked := by
  induction words generalizing asked with
  | nil => rfl
  | cons word rest ih =>
    rw [Command.items]
    by_cases hword : word = "--"
    · rw [if_pos hword, List.foldlM_map, hword]
      rfl
    · rw [if_neg hword, List.foldlM_append, addWords_cons asked hword]
      exact bind_congr ih

/-! ## What has been asked for -/

/-- Only the flag for structure text and the file are items of an invocation. -/
theorem mem_items_iff {asked : Invocation} {item : Item} :
    item ∈ asked.items ↔ (asked.functional = true ∧ item = .flag .functional) ∨
      ∃ name, asked.file = some name ∧ item = .file name := by
  cases hfunctional : asked.functional <;> simp [items, hfunctional, eq_comm]

theorem functional_mem_items_iff {asked : Invocation} :
    .flag .functional ∈ asked.items ↔ asked.functional = true := by
  simp [mem_items_iff]

theorem file_mem_items_iff {asked : Invocation} {name : String} :
    .file name ∈ asked.items ↔ asked.file = some name := by
  simp [mem_items_iff]

theorem any_isFile_items (asked : Invocation) :
    asked.items.any (·.isFile) = asked.file.isSome := by
  cases hfunctional : asked.functional <;> cases hfile : asked.file <;>
    simp [items, hfunctional, hfile, Item.isFile]

theorem nodup_items (asked : Invocation) : asked.items.Nodup := by
  cases hfunctional : asked.functional <;> cases hfile : asked.file <;>
    simp [items, hfunctional, hfile]

/-- Invocations of the same items are the same. -/
theorem eq_of_items_perm {asked other : Invocation} (h : asked.items.Perm other.items) :
    asked = other := by
  have hfunctional : asked.functional = other.functional := by
    rw [Bool.eq_iff_iff, ← functional_mem_items_iff, ← functional_mem_items_iff, h.mem_iff]
  have hfile : asked.file = other.file := by
    apply Option.ext
    intro name
    rw [← file_mem_items_iff, ← file_mem_items_iff, h.mem_iff]
  cases asked
  exact congrArg₂ Invocation.mk hfunctional hfile

/-- **What is asked for is what the items are.** An item with a verdict behind those before it ends
the reading; any other is added to them. -/
theorem addItem_step {asked : Invocation} {before : List Item} (h : before.Perm asked.items)
    (item : Item) :
    (∃ decision, item.verdict? before = some decision ∧ asked.addItem item = .error decision) ∨
    item.verdict? before = none ∧
      ∃ next, asked.addItem item = .ok next ∧ (before ++ [item]).Perm next.items := by
  cases item with
  | unknown argument => exact .inl ⟨_, rfl, rfl⟩
  | value text known => exact .inl ⟨_, rfl, rfl⟩
  | file name =>
    have hany : before.any (·.isFile) = asked.file.isSome := h.any_eq.trans asked.any_isFile_items
    rw [Item.verdict?, hany, addItem, addFile]
    cases hfile : asked.file with
    | some other => exact .inl ⟨_, rfl, rfl⟩
    | none =>
      refine .inr ⟨rfl, _, rfl, (h.append_right _).trans ?_⟩
      simp [items, hfile]
  | flag known =>
    have hempty : .file "" ∈ before ↔ asked.file = some "" := by
      rw [h.mem_iff, file_mem_items_iff]
    have hknown : .flag .functional ∈ before ↔ asked.functional = true := by
      rw [h.mem_iff, functional_mem_items_iff]
    unfold Item.verdict? addItem addFlag checkFile
    simp only [hempty, hknown]
    by_cases hfile : asked.file = some ""
    · rw [if_pos hfile, if_pos hfile]
      exact .inl ⟨_, rfl, rfl⟩
    · rw [if_neg hfile, if_neg hfile]
      cases known with
      | help => exact .inl ⟨_, rfl, rfl⟩
      | version => exact .inl ⟨_, rfl, rfl⟩
      | functional =>
        obtain ⟨functional, file⟩ := asked
        cases functional with
        | true => exact .inl ⟨_, rfl, rfl⟩
        | false =>
          refine .inr ⟨rfl, _, rfl, (h.append_right _).trans ?_⟩
          exact List.perm_append_singleton _ _

end Invocation

/-! ## The decision -/

/-- One more item is undecided with the others if it has no verdict behind them. -/
theorem Undecided.concat {items : List Item} (h : Undecided items) {item : Item}
    (hitem : item.verdict? items = none) : Undecided (items ++ [item]) := by
  intro before other hbegins
  rcases List.prefix_concat_iff.1 hbegins with hsame | hbegins
  · obtain ⟨rfl, hlast⟩ := List.append_inj' hsame rfl
    rwa [(List.cons.inj hlast).1]
  · exact h before other hbegins

theorem Undecided.mono {before items : List Item} (h : Undecided items)
    (hbegins : before <+: items) : Undecided before :=
  fun _ _ hother => h _ _ (hother.trans hbegins)

/-- Items are undecided, or one of them is the first that has a verdict. -/
theorem undecided_or_exists (items : List Item) :
    Undecided items ∨ ∃ before item decision, before ++ [item] <+: items ∧ Undecided before ∧
      item.verdict? before = some decision := by
  induction items using List.reverseRecOn with
  | nil => exact .inl fun before item hbegins => by simp at hbegins
  | append_singleton items last ih =>
    rcases ih with hundecided | ⟨before, item, decision, hbegins, hfirst⟩
    · cases hverdict : last.verdict? items with
      | none => exact .inl (hundecided.concat hverdict)
      | some decision =>
        exact .inr ⟨items, last, decision, List.prefix_rfl, hundecided, hverdict⟩
    · exact .inr ⟨before, item, decision, hbegins.trans (List.prefix_append _ _), hfirst⟩

/-- **Undecided items are all added.** -/
theorem Undecided.exists_asked {items : List Item} (h : Undecided items) :
    ∃ asked, items.foldlM Invocation.addItem {} = .ok asked ∧ items.Perm asked.items := by
  induction items using List.reverseRecOn with
  | nil => exact ⟨{}, rfl, .refl _⟩
  | append_singleton items last ih =>
    obtain ⟨asked, hread, hperm⟩ := ih (h.mono (List.prefix_append _ _))
    rcases Invocation.addItem_step hperm last with ⟨decision, hverdict, _⟩ | ⟨_, next, hnext, hperm⟩
    · rw [h items last List.prefix_rfl] at hverdict
      cases hverdict
    · refine ⟨next, ?_, hperm⟩
      rw [List.foldlM_append, hread]
      show asked.addItem last >>= pure = .ok next
      rw [bind_pure, hnext]

/-- **The first item with a verdict ends the reading.** -/
theorem foldlM_addItem_of_verdict {items before : List Item} {item : Item} {decision : Decision}
    (hbegins : before ++ [item] <+: items) (hbefore : Undecided before)
    (hverdict : item.verdict? before = some decision) :
    items.foldlM Invocation.addItem {} = .error decision := by
  obtain ⟨after, rfl⟩ := hbegins
  obtain ⟨asked, hread, hperm⟩ := hbefore.exists_asked
  rcases Invocation.addItem_step hperm item with ⟨other, hother, hend⟩ | ⟨hnone, _⟩
  · obtain rfl := Option.some.inj (hverdict.symm.trans hother)
    rw [List.append_assoc, List.foldlM_append, hread]
    show (item :: after).foldlM Invocation.addItem asked = .error decision
    rw [List.foldlM_cons, hend]
    rfl
  · rw [hverdict] at hnone
    cases hnone

/-- The items of an invocation are undecided in any order, if its file has a name. -/
theorem undecided_of_perm {items : List Item} {invocation : Invocation}
    (hitems : items.Perm invocation.items) (hfile : invocation.file ≠ some "") :
    Undecided items := by
  rintro before item ⟨after, rfl⟩
  have hmem {other : Item} (h : other ∈ before) : other ∈ invocation.items :=
    hitems.subset (List.mem_append_left _ (List.mem_append_left _ h))
  have hitem : item ∈ invocation.items := hitems.subset (by simp)
  -- No item of an invocation occurs twice, so nothing before the item stands in its way.
  have hnew : item ∉ before := by
    have hnodup := hitems.nodup_iff.2 invocation.nodup_items
    rw [List.append_assoc, List.nodup_append] at hnodup
    exact fun h => hnodup.2.2 item h item (by simp) rfl
  rcases Invocation.mem_items_iff.1 hitem with ⟨_, rfl⟩ | ⟨name, hname, rfl⟩
  · have hempty : .file "" ∉ before := fun h => hfile (Invocation.file_mem_items_iff.1 (hmem h))
    simp [Item.verdict?, hempty, hnew]
  · have hno : before.any (·.isFile) = false := by
      rw [List.any_eq_false]
      intro other hother hisFile
      rcases Invocation.mem_items_iff.1 (hmem hother) with ⟨_, rfl⟩ | ⟨name', hname', rfl⟩
      · cases hisFile
      · obtain rfl : name = name' := Option.some.inj (hname.symm.trans hname')
        exact hnew hother
    simp [Item.verdict?, hno]

/-- Whatever the items decide is decided. -/
theorem decideArguments_eq_of_decides {arguments : List String} {decision : Decision}
    (h : Decides (items arguments) decision) : decideArguments arguments = decision := by
  rw [decideArguments, Invocation.addWords_eq]
  cases h with
  | item hbegins hbefore hverdict =>
    rw [foldlM_addItem_of_verdict hbegins hbefore hverdict]
    rfl
  | emptyFile hundecided hempty =>
    obtain ⟨asked, hread, hperm⟩ := hundecided.exists_asked
    have hfile : asked.file = some "" := Invocation.file_mem_items_iff.1 (hperm.subset hempty)
    rw [hread, Except.bind, Invocation.checkFile, if_pos hfile]
  | accepted hitems hfile =>
    obtain ⟨asked, hread, hperm⟩ := (undecided_of_perm hitems hfile).exists_asked
    obtain rfl := Invocation.eq_of_items_perm (hperm.symm.trans hitems)
    rw [hread, Except.bind, Invocation.checkFile, if_neg hfile]

/-- Some decision is always made. -/
theorem exists_decides (items : List Item) : ∃ decision, Decides items decision := by
  rcases undecided_or_exists items with h | ⟨before, item, decision, hbegins, hbefore, hverdict⟩
  · obtain ⟨asked, _, hperm⟩ := h.exists_asked
    by_cases hfile : asked.file = some ""
    · exact ⟨_, .emptyFile h (hperm.symm.subset (Invocation.file_mem_items_iff.2 hfile))⟩
    · exact ⟨_, .accepted hperm hfile⟩
  · exact ⟨decision, .item hbegins hbefore hverdict⟩

/-- **Arguments amount to what their items decide.** -/
theorem decideArguments_eq_iff {arguments : List String} {decision : Decision} :
    decideArguments arguments = decision ↔ Decides (items arguments) decision := by
  refine ⟨?_, decideArguments_eq_of_decides⟩
  rintro rfl
  obtain ⟨decision, hdecides⟩ := exists_decides (items arguments)
  rwa [decideArguments_eq_of_decides hdecides]

end ScopedLambda.Command
