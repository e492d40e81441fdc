import SimdNetwork.Proofs.Target.Override

/-! Override lists written from changes are read back, and the last change of a feature wins. -/

namespace SimdNetwork

/-- A blank is no capital letter. -/
theorem toLower_of_isBlank {c : Char} (blank : isBlank c = true) : c.toLower = c := by
  -- Blanks are listed by their codes.
  simp only [isBlank, Bool.or_eq_true, Bool.and_eq_true, decide_eq_true_eq, beq_iff_eq] at blank
  -- Only the codes of capital letters are moved, and none of them is listed as a blank.
  refine dif_neg ?_
  rintro ⟨atLeast, atMost⟩
  have low : 65 ≤ c.toNat := UInt32.le_iff_toNat_le.mp atLeast
  have high : c.toNat ≤ 90 := UInt32.le_iff_toNat_le.mp atMost
  omega

/-- A comma is no blank. -/
theorem Blanks.no_comma {text : List Char} (blank : Blanks text) : ',' ∉ text :=
  -- It would have to be listed as one.
  fun member => absurd (blank ',' member) (by decide)

namespace Feature

/-- The names of features have neither blanks nor commas. -/
theorem mem_name {feature : Feature} {c : Char} (member : c ∈ feature.name.toList) :
    isBlank c = false ∧ c ≠ ',' := by
  -- The names of all features are read letter by letter.
  have solid : (feature.name.toList.all fun c => !isBlank c && c != ',') = true := by
    cases feature <;> decide
  simpa using List.all_eq_true.mp solid c member

namespace Spelled

variable {feature : Feature} {name : List Char}

/-- A letter of a spelling is a letter of the name, in either case. -/
theorem toLower_mem (spelled : feature.Spelled name) {c : Char} (member : c ∈ name) :
    c.toLower ∈ feature.name.toList := by
  -- A spelling in lower case is the name, or the name without its dot.
  have lower : c.toLower ∈ name.map Char.toLower := List.mem_map_of_mem member
  rcases spelled with full | short
  · rwa [full] at lower
  · rw [short] at lower
    exact (List.mem_filter.mp lower).1

/-- A spelling has no blanks, so that there is nothing to trim. -/
theorem bare (spelled : feature.Spelled name) : Bare name := by
  -- No letter of the spelling is a blank, and so neither its first nor its last is.
  have solid : ∀ c ∈ name, isBlank c = false := by
    intro c member
    rw [Bool.eq_false_iff]
    intro blank
    -- A blank would stand in the name just as it stands in the spelling.
    have listed := spelled.toLower_mem member
    rw [toLower_of_isBlank blank] at listed
    rw [(mem_name listed).1] at blank
    cases blank
  exact ⟨fun c first => solid c (List.mem_of_head? first),
    fun c last => solid c (List.mem_of_getLast? last)⟩

/-- A spelling has no commas, so that it is never cut. -/
theorem no_comma (spelled : feature.Spelled name) : ',' ∉ name :=
  -- A comma is its own lower case, so it would stand in the name.
  fun member => (mem_name (spelled.toLower_mem member)).2 rfl

/-- A spelling has at least one letter. -/
theorem ne_nil (spelled : feature.Spelled name) : name ≠ [] := by
  -- No name is empty, with or without its dot.
  rintro rfl
  revert spelled
  cases feature <;> decide

end Spelled

end Feature

namespace Change

/-- An entry that writes a change: the sign and a spelling of the feature, with blanks at will. -/
def Written (change : Change) (entry : List Char) : Prop :=
  ∃ before between name after, Blanks before ∧ Blanks between ∧ Blanks after ∧
    change.feature.Spelled name ∧ entry = before ++ change.sign :: (between ++ name) ++ after

/-- Entries that write changes in order, with blank entries at will. -/
inductive Renders : List Change → List (List Char) → Prop where
  /-- No entry writes no change. -/
  | nil : Renders [] []
  /-- A blank entry writes nothing. -/
  | blank {changes : List Change} {entry : List Char} {entries : List (List Char)}
      (blank : Blanks entry) (rest : Renders changes entries) : Renders changes (entry :: entries)
  /-- An entry writes the first of the changes, and the other entries write the others. -/
  | change {change : Change} {changes : List Change} {entry : List Char}
      {entries : List (List Char)} (written : change.Written entry)
      (rest : Renders changes entries) : Renders (change :: changes) (entry :: entries)

/-- The sign of a change says whether to add. -/
theorem adds?_sign (change : Change) : adds? change.sign = some change.adds := by
  -- Each of the two signs is read as what it was written for.
  rw [sign]
  cases change.adds <;> rfl

/-- A sign is neither a blank nor a comma. -/
theorem sign_solid (change : Change) : isBlank change.sign = false ∧ change.sign ≠ ',' := by
  -- The sign is a plus or a minus.
  rw [sign]
  cases change.adds <;> decide

namespace Written

variable {change : Change} {entry : List Char}

/-- An entry that writes a change is read as that change. -/
theorem read_eq (written : change.Written entry) : read entry = .ok (some change) := by
  -- The blanks around the entry and those behind the sign are trimmed one after the other.
  obtain ⟨before, between, name, after, leading, gap, trailing, spelled, rfl⟩ := written
  -- Between its blanks the entry goes from the sign to the last letter of the name.
  have outer : Trims (before ++ change.sign :: (between ++ name) ++ after)
      (change.sign :: (between ++ name)) := by
    refine ⟨⟨?_, ?_⟩, before, after, leading, trailing, rfl⟩
    · intro c first
      cases first
      exact change.sign_solid.1
    · -- There is a name behind the sign, so the entry ends as the name does.
      intro c last
      have letter := List.getLast?_eq_some_getLast spelled.ne_nil
      rw [← List.cons_append, List.getLast?_append, letter, Option.some_or, ← letter] at last
      exact spelled.bare.ends c last
  have inner : Trims (between ++ name) name :=
    ⟨spelled.bare, between, [], gap, blanks_nil, by simp⟩
  rw [read_of_signed outer change.adds?_sign, spelled.read_eq inner]
  rfl

/-- An entry that writes a change has no comma. -/
theorem no_comma (written : change.Written entry) : ',' ∉ entry := by
  -- The entry is taken apart into what it was written from.
  obtain ⟨before, between, name, after, leading, gap, trailing, spelled, rfl⟩ := written
  -- Neither the blanks nor the sign nor the name brings one in.
  simp only [List.mem_append, List.mem_cons, not_or]
  exact ⟨⟨leading.no_comma, change.sign_solid.2.symm, gap.no_comma, spelled.no_comma⟩,
    trailing.no_comma⟩

end Written

namespace Renders

variable {changes : List Change} {entries : List (List Char)}

/-- The entries are read one by one as the changes they write, or as none. -/
theorem exists_asked (rendered : Renders changes entries) :
    ∃ asked, entries.mapM read = .ok asked ∧ asked.filterMap id = changes := by
  -- The induction is on how the entries were written, and a blank one asks for nothing.
  induction rendered with
  | nil => exact ⟨[], rfl, rfl⟩
  | blank blank _ ih =>
    obtain ⟨asked, rest, kept⟩ := ih
    exact ⟨none :: asked, by rw [List.mapM_cons, read_of_blanks blank, ok_bind, rest]; rfl, kept⟩
  | @change change _ _ _ written _ ih =>
    obtain ⟨asked, rest, kept⟩ := ih
    exact ⟨some change :: asked, by rw [List.mapM_cons, written.read_eq, ok_bind, rest]; rfl,
      congrArg (change :: ·) kept⟩

/-- No entry has a comma of its own. -/
theorem no_comma (rendered : Renders changes entries) : ∀ entry ∈ entries, ',' ∉ entry := by
  -- Neither a blank entry nor a written one has a comma.
  induction rendered with
  | nil => nofun
  | blank blank _ ih =>
    rw [List.forall_mem_cons]
    exact ⟨blank.no_comma, ih⟩
  | change written _ ih =>
    rw [List.forall_mem_cons]
    exact ⟨written.no_comma, ih⟩

/-- Joined by commas, the entries are read as the changes they write. -/
theorem readAll_eq (rendered : Renders changes entries) :
    readAll ([','].intercalate entries) = .ok changes := by
  -- An empty list of entries is written like one blank entry, so it is a case of its own.
  cases entries with
  | nil =>
    -- No entry at all leaves the empty text, which is one blank entry.
    cases rendered
    rfl
  | cons entry others =>
    -- Without commas of their own, the entries are what the text is cut into.
    obtain ⟨asked, taken, kept⟩ := rendered.exists_asked
    rw [readAll, List.splitOn_intercalate ',' rendered.no_comma (List.cons_ne_nil entry others),
      taken, ← kept]
    rfl

end Renders

end Change

namespace Target

/-- A change decides about its own feature and about no other. -/
theorem contains_change (target : Target) (change : Change) (feature : Feature) :
    (target.change change).present.contains feature =
      if change.feature = feature then change.adds else target.present.contains feature := by
  -- The feature is the one that is changed, or it is not.
  rw [Target.change]
  by_cases same : change.feature = feature
  · cases adds : change.adds <;> simp [insert, erase, same]
  · have apart : ¬ feature = change.feature := fun equal => same equal.symm
    cases adds : change.adds <;> simp [insert, erase, same, apart]

/-- No change touches the declared tier. -/
theorem tier_foldl_change (target : Target) (changes : List Change) :
    (changes.foldl change target).tier = target.tier := by
  -- Adding and taking out change what is present, and that alone.
  induction changes generalizing target with
  | nil => rfl
  | cons first rest ih =>
    rw [List.foldl_cons, ih, change]
    cases first.adds <;> rfl

/-- After all changes a feature is there if the last change of it, or else the start, has it. -/
theorem contains_foldl_change (target : Target) (changes : List Change) (feature : Feature) :
    (changes.foldl change target).present.contains feature = true ↔
      (∃ before after, changes = before ++ ⟨true, feature⟩ :: after ∧
        ∀ later ∈ after, later.feature ≠ feature) ∨
      (∀ named ∈ changes, named.feature ≠ feature) ∧ target.present.contains feature = true := by
  -- The first change counts only where no later one is about the same feature.
  induction changes generalizing target with
  | nil => simp
  | cons first rest ih =>
    rw [List.foldl_cons, ih, contains_change, List.forall_mem_cons]
    constructor
    · rintro (⟨before, after, rfl, silent⟩ | ⟨silent, held⟩)
      · exact .inl ⟨first :: before, after, rfl, silent⟩
      · split at held
        -- If it is about this feature, it is the last such change.
        · rename_i same
          exact .inl ⟨[], rest, by rw [← same, ← held]; rfl, silent⟩
        · rename_i apart
          exact .inr ⟨⟨apart, silent⟩, held⟩
    · rintro (⟨before, after, split, silent⟩ | ⟨⟨apart, silent⟩, held⟩)
      · cases before with
        | nil =>
          -- The first change is itself the last one about the feature.
          obtain ⟨rfl, rfl⟩ := List.cons.inj split
          exact .inr ⟨silent, by simp⟩
        | cons _ others =>
          -- The last one about the feature is in the rest.
          obtain ⟨_, rfl⟩ := List.cons.inj split
          exact .inl ⟨others, after, rfl, silent⟩
      · exact .inr ⟨silent, by rw [if_neg apart, held]⟩

/--
Override lists that write changes are read, and the last change of a feature wins.

However the names are spelled, wherever blanks stand and whichever entries are left blank, the list
is read. The declared tier stays, and a feature is present afterwards just when the last entry that
names it adds it, or when no entry names it and it was present before.
-/
theorem override_of_renders (target : Target) (changes : List Change)
    (entries : List (List Char)) (rendered : Change.Renders changes entries) :
    ∃ changed, target.override ([','].intercalate entries) = .ok changed ∧
      changed.tier = target.tier ∧
      ∀ feature, changed.present.contains feature = true ↔
        (∃ before after, changes = before ++ ⟨true, feature⟩ :: after ∧
          ∀ later ∈ after, later.feature ≠ feature) ∨
        (∀ named ∈ changes, named.feature ≠ feature) ∧
          target.present.contains feature = true := by
  -- The changes are read back as they were written, and made one after another.
  refine ⟨changes.foldl change target, ?_, tier_foldl_change target changes,
    contains_foldl_change target changes⟩
  rw [override_eq, rendered.readAll_eq]
  rfl

/--
One feature is taken out and added again, another added and taken out again, with a dot and without.

Between the entries stand an empty one and a blank one.
-/
theorem override_of_renders_six_entries :
    Change.Renders [⟨false, .avx2⟩, ⟨true, .sse41⟩, ⟨true, .avx2⟩, ⟨false, .sse41⟩]
      ["-avx2".toList, [], " + SSE41\t".toList, [' '], "+\u00a0aVx2".toList, "-sse4.1".toList] ∧
    ∃ changed,
      override (ofTier .avx2) "-avx2,, + SSE41\t, ,+\u00a0aVx2,-sse4.1".toList = .ok changed ∧
      changed.tier = .avx2 ∧ changed.present.contains .avx2 = true ∧
        changed.present.contains .sse41 = false ∧ changed.present.contains .avx = true := by
  -- The list is shown to write four changes, and the theorem says what they come to.
  have rendered : Change.Renders [⟨false, .avx2⟩, ⟨true, .sse41⟩, ⟨true, .avx2⟩, ⟨false, .sse41⟩]
      ["-avx2".toList, [], " + SSE41\t".toList, [' '], "+\u00a0aVx2".toList, "-sse4.1".toList] := by
    refine .change ⟨[], [], "avx2".toList, [], ?_⟩ (.blank (by decide) (.change
      ⟨[' '], [' '], "SSE41".toList, ['\t'], ?_⟩ (.blank (by decide) (.change
        ⟨[], ['\u00a0'], "aVx2".toList, [], ?_⟩ (.change
          ⟨[], [], "sse4.1".toList, [], ?_⟩ .nil)))))
    all_goals decide
  obtain ⟨changed, made, tier, present⟩ := override_of_renders (ofTier .avx2) _ _ rendered
  refine ⟨rendered, changed, made, tier, ?_, ?_, ?_⟩
  · -- The third change adds it, and the fourth is about another feature.
    exact (present .avx2).mpr
      (.inl ⟨[⟨false, .avx2⟩, ⟨true, .sse41⟩], [⟨false, .sse41⟩], rfl, by simp⟩)
  · rw [Bool.eq_false_iff, Ne, present .sse41]
    rintro (⟨before, after, split, silent⟩ | ⟨silent, _⟩)
    · -- The very last entry takes the feature out, so no entry that adds it is its last.
      have last := congrArg List.getLast? split
      rcases List.eq_nil_or_concat after with rfl | ⟨front, final, rfl⟩
      · simp at last
      · rw [List.concat_eq_append, ← List.cons_append, ← List.append_assoc,
          List.getLast?_concat] at last
        obtain rfl : ⟨false, .sse41⟩ = final := Option.some.inj last
        exact silent ⟨false, .sse41⟩ (by simp) rfl
    · exact silent ⟨true, .sse41⟩ (by decide) rfl
  · exact (present .avx).mpr (.inr ⟨by simp, rfl⟩)

end Target

end SimdNetwork
