import SimdNetwork.Proofs.Outcome
import SimdNetwork.Proofs.Text.Blank
import SimdNetwork.Target

/-! Override lists are read entry by entry, and fail at the first entry that cannot be read. -/

namespace SimdNetwork

namespace Feature

/-- The feature's name without its dot, if it has one. -/
def dotless (feature : Feature) : List Char := feature.name.toList.filter (· ≠ '.')

/-- A spelling of the feature's name: in any case, and with or without the dot. -/
def Spelled (feature : Feature) (name : List Char) : Prop :=
  name.map Char.toLower = feature.name.toList ∨ name.map Char.toLower = feature.dotless

/-- Spellings are compared letter by letter. -/
instance (feature : Feature) (name : List Char) : Decidable (feature.Spelled name) :=
  inferInstanceAs (Decidable (_ ∨ _))

/-- Without their dots, no two features have the same name. -/
theorem eq_of_dotless {left right : Feature} (same : left.dotless = right.dotless) :
    left = right := by
  -- There are few enough features to compare every two of them.
  have distinct : ∀ left ∈ all, ∀ right ∈ all, left.dotless = right.dotless → left = right := by
    decide
  exact distinct left (mem_all left) right (mem_all right) same

/-- Either spelling of a feature gives its dotless name once the dots are left out. -/
theorem Spelled.filter_dots {feature : Feature} {name : List Char}
    (spelled : feature.Spelled name) :
    (name.map Char.toLower).filter (· ≠ '.') = feature.dotless := by
  -- The name is written in full or without its dot, and both come to the same without dots.
  rcases spelled with full | short
  · rw [full, dotless]
  · -- There is no dot left to leave out.
    rw [short, dotless, List.filter_filter]
    simp only [Bool.and_self]

/-- A text spells one feature at most. -/
theorem Spelled.unique {left right : Feature} {name : List Char} (spelled : left.Spelled name)
    (other : right.Spelled name) : left = right :=
  -- Without dots both features have the same name.
  eq_of_dotless (spelled.filter_dots.symm.trans other.filter_dots)

/-- A text is read as a feature it spells, or refused because it spells none. -/
theorem read_cases (text : List Char) :
    (∃ feature : Feature, feature.Spelled (trimBlanks text) ∧ read text = .ok feature) ∨
      (∀ feature : Feature, ¬ feature.Spelled (trimBlanks text)) ∧
        read text = .error (.unknownFeature (String.ofList (trimBlanks text))) := by
  -- The search through all features succeeds or does not.
  rw [read]
  split
  · rename_i feature found
    -- The test in the search is the definition of a spelling, with its sides exchanged.
    have passed := List.find?_some found
    rw [decide_eq_true_eq] at passed
    exact .inl ⟨feature, passed.imp Eq.symm Eq.symm, rfl⟩
  · rename_i none_found
    refine .inr ⟨?_, rfl⟩
    intro feature spelled
    -- Every feature is tried, so one that the text spells would have been found.
    have refused := List.find?_eq_none.mp none_found feature (mem_all feature)
    rw [decide_eq_true_eq] at refused
    exact refused (spelled.imp Eq.symm Eq.symm)

/-- A text that spells a feature is read as that feature, whichever others are tried before it. -/
theorem Spelled.read_eq {text core : List Char} {feature : Feature} (trims : Trims text core)
    (spelled : feature.Spelled core) : read text = .ok feature := by
  -- What is looked for is the core of the text.
  rw [← trims.trimBlanks_eq] at spelled
  rcases read_cases text with ⟨first, found, made⟩ | ⟨none_spelled, _⟩
  · -- The feature that is found first is the only one that the text can spell.
    rw [made, found.unique spelled]
  · exact absurd spelled (none_spelled feature)

/-- Reading fails just on the texts that spell no feature, and reports what was looked for. -/
theorem read_eq_error {text : List Char} {problem : ConfigError} :
    read text = .error problem ↔ ∃ core, Trims text core ∧
      (∀ feature : Feature, ¬ feature.Spelled core) ∧
        problem = .unknownFeature (String.ofList core) := by
  -- The core of a text is unique, so the report can name only one.
  rcases read_cases text with ⟨feature, spelled, made⟩ | ⟨none_spelled, refused⟩
  · rw [made]
    simp only [reduceCtorEq, false_iff]
    rintro ⟨core, trims, none_spelled, _⟩
    rw [trims.trimBlanks_eq] at spelled
    exact none_spelled feature spelled
  · rw [refused, Except.error.injEq]
    constructor
    · intro same
      exact ⟨_, trims_trimBlanks text, none_spelled, same.symm⟩
    · rintro ⟨core, trims, _, rfl⟩
      rw [trims.trimBlanks_eq]

end Feature

/-- A feature that is to be added or taken out. -/
structure Change where
  /-- Whether it is added. -/
  adds : Bool
  /-- The feature. -/
  feature : Feature
  deriving DecidableEq, Repr

namespace Change

/-- The sign that a change is written with. -/
def sign (change : Change) : Char := if change.adds then '+' else '-'

/-- What a sign says to do, if it is one. -/
def adds? (sign : Char) : Option Bool :=
  if sign = '+' then some true else if sign = '-' then some false else none

/-- The change that an entry asks for, where a blank entry asks for none. -/
def read (entry : List Char) : Except ConfigError (Option Change) :=
  match trimBlanks entry with
  | [] => .ok none
  | sign :: name =>
    match adds? sign with
    | some adds => (Feature.read name).map fun feature => some ⟨adds, feature⟩
    | none => .error (.missingSign (String.ofList (sign :: name)))

/-- The changes that a list of entries asks for, in order. -/
def readAll (text : List Char) : Except ConfigError (List Change) :=
  ((text.splitOn ',').mapM read).map fun asked => asked.filterMap id

/-- Plus and minus are signs. -/
theorem exists_adds? {sign : Char} :
    (∃ adds, adds? sign = some adds) ↔ sign = '+' ∨ sign = '-' := by
  -- Both tests are made for every character.
  rw [adds?]
  by_cases plus : sign = '+' <;> by_cases minus : sign = '-' <;> simp [plus, minus]

/-- No other character is a sign. -/
theorem adds?_eq_none {sign : Char} : adds? sign = none ↔ sign ≠ '+' ∧ sign ≠ '-' := by
  -- It is the negation of the statement about signs.
  rw [Option.eq_none_iff_forall_ne_some, ← not_or, ← exists_adds?, not_exists]

/-- A blank entry asks for no change. -/
theorem read_of_blanks {entry : List Char} (blank : Blanks entry) : read entry = .ok none := by
  -- The core of a blank text is empty.
  have trims : Trims entry [] :=
    ⟨⟨by simp, by simp⟩, entry, [], blank, blanks_nil, by simp⟩
  rw [read, trims.trimBlanks_eq]

section Trimmed

variable {entry name : List Char} {sign : Char}

/-- Behind a sign the name of a feature is read. -/
theorem read_of_signed {adds : Bool} (trims : Trims entry (sign :: name))
    (signed : adds? sign = some adds) :
    read entry = (Feature.read name).map fun feature => some ⟨adds, feature⟩ := by
  -- The core is what stands in the entry, and its first character decides.
  rw [read, trims.trimBlanks_eq]
  dsimp only
  rw [signed]

/-- An entry that starts with no sign is refused as it stands between its blanks. -/
theorem read_of_unsigned (trims : Trims entry (sign :: name)) (unsigned : adds? sign = none) :
    read entry = .error (.missingSign (String.ofList (sign :: name))) := by
  -- Nothing behind the first character of the core is looked at.
  rw [read, trims.trimBlanks_eq]
  dsimp only
  rw [unsigned]

end Trimmed

/-- Why an entry cannot be read. -/
inductive Unreadable (entry : List Char) : ConfigError → Prop where
  /-- There is something between the blanks, and it starts with no sign. -/
  | unsigned {first : Char} {rest : List Char} (trims : Trims entry (first :: rest))
      (plain : first ≠ '+' ∧ first ≠ '-') :
      Unreadable entry (.missingSign (String.ofList (first :: rest)))
  /-- What stands behind the sign, again between blanks, spells no feature. -/
  | unknown {sign : Char} {rest name : List Char} (trims : Trims entry (sign :: rest))
      (signed : sign = '+' ∨ sign = '-') (named : Trims rest name)
      (none_spelled : ∀ feature : Feature, ¬ feature.Spelled name) :
      Unreadable entry (.unknownFeature (String.ofList name))

/-- Reading an entry fails just where it cannot be read, and says why. -/
theorem read_eq_error {entry : List Char} {problem : ConfigError} :
    read entry = .error problem ↔ Unreadable entry problem := by
  -- The three cases of the core are those of reading the entry.
  constructor
  · intro failed
    have trims := trims_trimBlanks entry
    -- What is left between the blanks is nothing, or a first character and a rest.
    cases core : trimBlanks entry with
    | nil =>
      rw [read, core] at failed
      cases failed
    | cons sign rest =>
      rw [core] at trims
      cases signed : adds? sign with
      | none =>
        rw [read_of_unsigned trims signed, Except.error.injEq] at failed
        rw [← failed]
        exact .unsigned trims (adds?_eq_none.mp signed)
      | some adds =>
        rw [read_of_signed trims signed, map_eq_error, Feature.read_eq_error] at failed
        obtain ⟨name, named, none_spelled, rfl⟩ := failed
        exact .unknown trims (exists_adds?.mp ⟨adds, signed⟩) named none_spelled
  · -- Each reason is met at the step of the reading that it is about.
    intro unreadable
    cases unreadable with
    | unsigned trims plain => exact read_of_unsigned trims (adds?_eq_none.mpr plain)
    | unknown trims signed named none_spelled =>
      obtain ⟨adds, known⟩ := exists_adds?.mpr signed
      rw [read_of_signed trims known, map_eq_error, Feature.read_eq_error]
      exact ⟨_, named, none_spelled, rfl⟩

/-- An entry is read just when nothing keeps it from being read. -/
theorem exists_read_iff {entry : List Char} :
    (∃ asked, read entry = .ok asked) ↔ ∀ problem, ¬ Unreadable entry problem := by
  -- Reading an entry fails or does not.
  simp only [← read_eq_error]
  cases read entry <;> simp

end Change

namespace Target

/-- The target after a change. -/
def change (target : Target) (change : Change) : Target :=
  if change.adds then target.insert change.feature else target.erase change.feature

/-- The entries are the texts between the commas. -/
theorem entries_eq_splitOn (text : List Char) : entries text = text.splitOn ',' := by
  -- The induction is on the text, which is read one character at a time from the front.
  induction text with
  | nil => rfl
  | cons c rest ih =>
    rw [entries, ih, List.splitOn_eq_splitOnP, List.splitOn_eq_splitOnP,
      List.splitOnP_cons_eq_if_modifyHead]
    by_cases comma : c = ','
    · rw [if_pos comma, if_pos (by simp [comma])]
    · -- A character that is no comma goes in front of the first entry, which there always is.
      rw [if_neg comma, if_neg (by simp [comma])]
      cases split : rest.splitOnP (· == ',') with
      | nil => exact absurd split (List.splitOnP_ne_nil _ _)
      | cons entry others => rfl

/-- One override reads what the entry asks for and does it. -/
theorem overrideEntry_eq (target : Target) (entry : List Char) :
    target.overrideEntry entry =
      (Change.read entry).map fun asked => asked.elim target target.change := by
  -- Both look at what stands between the blanks of the entry.
  have trims := trims_trimBlanks entry
  rw [overrideEntry]
  -- The two signs differ only in what is done with the feature that is read.
  split
  · rename_i empty
    rw [Change.read, empty]
    rfl
  · rename_i name plus
    rw [plus] at trims
    rw [Change.read_of_signed trims (rfl : Change.adds? '+' = some true)]
    cases Feature.read name <;> rfl
  · rename_i name minus
    rw [minus] at trims
    rw [Change.read_of_signed trims (rfl : Change.adds? '-' = some false)]
    cases Feature.read name <;> rfl
  · -- What is left starts with a character that is no sign.
    rename_i filled noPlus noMinus
    cases core : trimBlanks entry with
    | nil => exact absurd core filled
    | cons first rest =>
      rw [core] at trims
      have plain : first ≠ '+' ∧ first ≠ '-' :=
        ⟨fun plus => noPlus rest (plus ▸ core), fun minus => noMinus rest (minus ▸ core)⟩
      rw [Change.read_of_unsigned trims (Change.adds?_eq_none.mpr plain)]
      rfl

/-- An override list is read as a whole, and its changes are made one after another. -/
theorem override_eq (target : Target) (text : List Char) :
    target.override text =
      (Change.readAll text).map fun changes => changes.foldl change target := by
  -- Whether an entry can be read does not depend on the target that earlier entries left.
  have each : overrideEntry = fun (target : Target) entry =>
      (Change.read entry).map fun asked => asked.elim target target.change := by
    funext target entry
    exact overrideEntry_eq target entry
  rw [override, entries_eq_splitOn, each, foldlM_map, Change.readAll]
  cases (text.splitOn ',').mapM Change.read with
  | error problem => rfl
  | ok asked =>
    -- Entries that ask for nothing leave the target as it is.
    refine congrArg Except.ok (Eq.symm ?_)
    refine (List.foldl_filterMap ..).trans ?_
    congr 1
    funext target change
    cases change <;> rfl

/-- Two lists with a comma between them are overridden one after the other. -/
theorem override_append (target : Target) (left right : List Char) :
    target.override (left ++ ',' :: right) =
      target.override left >>= fun changed => changed.override right := by
  -- The comma between the two ends the last entry of the first and starts one of the second.
  have entriesOfBoth : entries (left ++ ',' :: right) = entries left ++ entries right := by
    simp only [entries_eq_splitOn, List.splitOn_eq_splitOnP]
    exact List.splitOnP_append_cons left right (by simp)
  rw [override, entriesOfBoth, List.foldlM_append]
  rfl

/--
Override lists compose, and fail at the first entry that cannot be read.

A list made of two lists with a comma between them does what the first does and then, if that
succeeded, what the second does. A list fails just when it has an entry that cannot be read, and the
error is that of the first such entry, whatever the target.
-/
theorem override_fails_at_first (target : Target) (left right text : List Char) :
    target.override (left ++ ',' :: right) =
      (target.override left >>= fun changed => changed.override right) ∧
    ((∃ problem, target.override text = .error problem) ↔
      ∃ entry ∈ text.splitOn ',', ∃ problem, Change.Unreadable entry problem) ∧
    ∀ problem, target.override text = .error problem ↔
      ∃ before entry after, text.splitOn ',' = before ++ entry :: after ∧
        (∀ earlier ∈ before, ∀ other, ¬ Change.Unreadable earlier other) ∧
          Change.Unreadable entry problem := by
  -- The list is made of changes that are read before any is made.
  refine ⟨override_append target left right, ?_, ?_⟩
  -- Making the changes cannot fail, so a list fails as reading its entries does.
  · simp only [override_eq, Change.readAll, map_eq_error, exists_mapM_eq_error,
      Change.read_eq_error]
  · intro problem
    simp only [override_eq, Change.readAll, map_eq_error, mapM_eq_error, Change.exists_read_iff,
      Change.read_eq_error]

/-- Stray commas are passed over, and behind a sign a second one belongs to the name. -/
example : override (ofTier .sse4) " + SSE41 ,,-avx2,+ +sse2 ,sse".toList =
    .error (.unknownFeature "+sse2") := rfl

end Target

end SimdNetwork
