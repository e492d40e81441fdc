import SimdNetwork.Text.Blank

/-! Trimming a text leaves its core: the text without blanks around it, and no shorter one. -/

namespace SimdNetwork

/-- A text that is nothing but blanks. -/
def Blanks (text : List Char) : Prop := ∀ c ∈ text, isBlank c = true

/-- Blanks are found by looking at every character. -/
instance (text : List Char) : Decidable (Blanks text) :=
  decidable_of_iff (text.all isBlank = true) List.all_eq_true

/-- A text that neither starts nor ends with a blank. -/
structure Bare (text : List Char) : Prop where
  /-- The first character, if there is one, is no blank. -/
  starts : ∀ c ∈ text.head?, isBlank c = false
  /-- Nor is the last. -/
  ends : ∀ c ∈ text.getLast?, isBlank c = false

/-- A text and what is left of it without the blanks around. -/
structure Trims (text core : List Char) : Prop where
  /-- No blank is left at either end. -/
  bare : Bare core
  /-- Only blanks are left out. -/
  around : ∃ before after, Blanks before ∧ Blanks after ∧ text = before ++ core ++ after

/-- The empty text has only blanks. -/
theorem blanks_nil : Blanks [] := nofun

/-- Turning a text of blanks round leaves it one. -/
theorem Blanks.reverse {text : List Char} (blank : Blanks text) : Blanks text.reverse :=
  -- A text turned round has the same characters.
  fun c member => blank c (List.mem_reverse.mp member)

/-- Dropping the blanks in front stops at the first character that is none. -/
theorem dropWhile_blanks {before rest : List Char} (blank : Blanks before)
    (starts : ∀ c ∈ rest.head?, isBlank c = false) : (before ++ rest).dropWhile isBlank = rest := by
  -- All of the front is dropped, and then nothing or a character that is no blank comes first.
  rw [List.dropWhile_append_of_pos blank]
  cases rest with
  | nil => rfl
  | cons first _ => exact List.dropWhile_cons_of_neg (by simp [starts first rfl])

/-- What is left after dropping the blanks in front starts with none. -/
theorem head_dropWhile_blank (text : List Char) :
    ∀ c ∈ (text.dropWhile isBlank).head?, isBlank c = false := by
  -- Dropping stops at the first character that fails the test.
  intro c first
  have stops := List.head?_dropWhile_not isBlank text
  rw [Option.mem_def.mp first] at stops
  exact stops

/-- The core of a text is what trimming leaves of it. -/
theorem Trims.trimBlanks_eq {text core : List Char} (trims : Trims text core) :
    trimBlanks text = core := by
  -- The core may be empty, and then there is no first character to stop at.
  obtain ⟨⟨starts, ends⟩, before, after, leading, trailing, rfl⟩ := trims
  cases core with
  | nil =>
    -- Without a core, the blanks in front and those behind are one run of blanks.
    have all : Blanks (before ++ after) := by
      intro c member
      exact (List.mem_append.mp member).elim (leading c) (trailing c)
    have dropped : (before ++ after ++ []).dropWhile isBlank = [] := dropWhile_blanks all (by simp)
    rw [List.append_nil] at dropped ⊢
    rw [trimBlanks, dropped]
    rfl
  | cons first rest =>
    have front : (before ++ (first :: rest ++ after)).dropWhile isBlank = first :: rest ++ after :=
      dropWhile_blanks leading starts
    -- The blanks behind stand in front once the text is turned round.
    rw [trimBlanks, List.append_assoc, front, List.reverse_append,
      dropWhile_blanks trailing.reverse (by rwa [List.head?_reverse]), List.reverse_reverse]

/-- What trimming leaves of a text is a core of it. -/
theorem trims_trimBlanks (text : List Char) : Trims text (trimBlanks text) := by
  -- Both ends are cut off as the longest run of blanks that stands there.
  have front := List.takeWhile_append_dropWhile (p := isBlank) (l := text)
  have back :=
    List.takeWhile_append_dropWhile (p := isBlank) (l := (text.dropWhile isBlank).reverse)
  have kept : trimBlanks text ++ ((text.dropWhile isBlank).reverse.takeWhile isBlank).reverse =
      text.dropWhile isBlank := by
    rw [trimBlanks, ← List.reverse_append, back, List.reverse_reverse]
  refine ⟨⟨?_, ?_⟩, _, ((text.dropWhile isBlank).reverse.takeWhile isBlank).reverse,
    List.all_eq_true.mp List.all_takeWhile, Blanks.reverse (List.all_eq_true.mp List.all_takeWhile),
    by rw [List.append_assoc, kept, front]⟩
  · -- The core starts where the blanks in front stop.
    intro c first
    apply head_dropWhile_blank text c
    rw [← kept, List.head?_append, Option.mem_def.mp first]
    rfl
  · -- Its last character comes first when the text is turned round, after the blanks behind.
    intro c last
    rw [trimBlanks, List.getLast?_reverse] at last
    exact head_dropWhile_blank _ c last

end SimdNetwork
