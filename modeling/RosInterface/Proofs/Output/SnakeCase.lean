/-
# RosInterface.Proofs.Output.SnakeCase -- the stem of a name is faithful to it

In snake case a name in ASCII loses its capitals and gains underscores, and nothing else happens
to it (`Text.unscored_snakeCase`).  So names with one stem differ in letter case and underscores
only; and a stem, which has no capital, is its own stem (`Text.snakeCase_snakeCase`).

Of the three marks of a new word, names of the usual shape show two: a capital after a small
letter and a capital after a digit.  Such a name is made of words of a small letter with more
small letters and digits behind it, put together with capitals at their fronts, and the
underscores go between the words and nowhere else (`Text.snakeCase_pascalCase`).  As the words
hold no underscore, the stem gives them back.
-/
import RosInterface.Output.ModuleFile
import RosInterface.Proofs.Files.Path
import RosInterface.Proofs.Text.LetterCase

set_option autoImplicit false

namespace RosInterface

namespace CodePoint

variable {c : CodePoint}

/-! ## Letter case in ASCII -/

theorem val_lower_of_isUpper (upper : c.isUpper = true) : c.lower.val = c.val + 0x20 := by
  have bounds := isUpper_iff.1 upper
  rw [lower, if_pos (by omega), if_pos upper, ofNat?, dif_pos (by omega)]
  rfl

theorem lower_of_not_isUpper (ascii : c.val < 0x80) (notUpper : c.isUpper = false) :
    c.lower = c := by
  rw [lower, if_pos ascii, if_neg (by simp [notUpper])]

theorem val_lower_lt (ascii : c.val < 0x80) : c.lower.val < 0x80 := by
  by_cases upper : c.isUpper = true
  · have bounds := isUpper_iff.1 upper
    rw [val_lower_of_isUpper upper]
    omega
  · rw [lower_of_not_isUpper ascii (by simpa using upper)]
    exact ascii

theorem not_isUpper_lower (ascii : c.val < 0x80) : c.lower.isUpper = false := by
  by_cases upper : c.isUpper = true
  · have bounds := isUpper_iff.1 upper
    rw [Bool.eq_false_iff, Ne, isUpper_iff, val_lower_of_isUpper upper]
    omega
  · have notUpper : c.isUpper = false := by simpa using upper
    rw [lower_of_not_isUpper ascii notUpper, notUpper]

/-- Nothing but the underscore becomes one. -/
theorem lower_eq_underscore_iff (ascii : c.val < 0x80) :
    c.lower = ofChar '_' ↔ c = ofChar '_' := by
  by_cases upper : c.isUpper = true
  · have bounds := isUpper_iff.1 upper
    simp only [CodePoint.ext_iff, val_lower_of_isUpper upper, val_ofChar]
    change c.val + 0x20 = 0x5F ↔ c.val = 0x5F
    omega
  · rw [lower_of_not_isUpper ascii (by simpa using upper)]

theorem not_isUpper_of_small (small : c.isLower = true ∨ c.isDigit = true) :
    c.isUpper = false := by
  rw [isLower_iff, isDigit_iff] at small
  rw [Bool.eq_false_iff, Ne, isUpper_iff]
  omega

theorem lower_of_small (small : c.isLower = true ∨ c.isDigit = true) : c.lower = c := by
  have bounds := small
  rw [isLower_iff, isDigit_iff] at bounds
  exact lower_of_not_isUpper (by omega) (not_isUpper_of_small small)

/-- The capital of a small letter. -/
def capital (c : CodePoint) : CodePoint :=
  if c.isLower then (ofNat? (c.val - 0x20)).getD c else c

theorem val_capital (small : c.isLower = true) : c.capital.val = c.val - 0x20 := by
  have bounds := isLower_iff.1 small
  rw [capital, if_pos small, ofNat?, dif_pos (by omega)]
  rfl

theorem isUpper_capital (small : c.isLower = true) : c.capital.isUpper = true := by
  have bounds := isLower_iff.1 small
  rw [isUpper_iff, val_capital small]
  omega

theorem lower_capital (small : c.isLower = true) : c.capital.lower = c := by
  have bounds := isLower_iff.1 small
  rw [CodePoint.ext_iff, val_lower_of_isUpper (isUpper_capital small), val_capital small]
  omega

end CodePoint

namespace Text

variable {s name : Text}

/-- Every code point of the text is in ASCII. -/
def IsAscii (s : Text) : Prop := ∀ c ∈ s, c.val < 0x80

instance (s : Text) : Decidable s.IsAscii := inferInstanceAs (Decidable (∀ c ∈ s, _))

/-- The text without its underscores. -/
def unscored (s : Text) : Text := s.filter fun c => c ≠ '_'

/-- In ASCII the neighbours of a letter do not matter. -/
theorem lower_of_ascii (ascii : s.IsAscii) : s.lower = s.map (·.lower) := by
  have after (before : Text) : lowerAfter before s = s.map (·.lower) := by
    induction s generalizing before with
    | nil => rfl
    | cons c rest ih =>
        obtain ⟨first, others⟩ := List.forall_mem_cons.1 ascii
        have notSigma : c ≠ CodePoint.capitalSigma := by
          rintro rfl
          exact absurd first (by decide)
        have notDotted : c ≠ CodePoint.dottedCapitalI := by
          rintro rfl
          exact absurd first (by decide)
        rw [lowerAfter, if_neg notSigma, if_neg notDotted, ih others]
        rfl
  exact after []

theorem IsAscii.lower (ascii : s.IsAscii) : s.lower.IsAscii := by
  rw [lower_of_ascii ascii]
  exact List.forall_mem_map.2 fun c member => CodePoint.val_lower_lt (ascii c member)

theorem unscored_lower (ascii : s.IsAscii) : s.lower.unscored = s.unscored.map (·.lower) := by
  rw [lower_of_ascii ascii, unscored, unscored, List.filter_map]
  congr 1
  refine List.filter_congr fun c member => ?_
  simp [CodePoint.lower_eq_underscore_iff (ascii c member)]

/-! ## Every name in ASCII -/

theorem IsAscii.separateWords (ascii : name.IsAscii) : name.separateWords.IsAscii := by
  intro c member
  rcases mem_separateWords member with rfl | inName
  · decide
  · exact ascii c inName

/-- But for underscores, nothing is put in and nothing is taken out. -/
theorem unscored_separateWords (name : Text) : name.separateWords.unscored = name.unscored := by
  induction name with
  | nil => rfl
  | cons c rest ih =>
      have kept (t : Text) : unscored (c :: t) =
          if c = CodePoint.ofChar '_' then unscored t else c :: unscored t := by
        simp [unscored, List.filter_cons]
      have dropped (t : Text) : unscored (CodePoint.ofChar '_' :: t) = unscored t := rfl
      rw [separateWords]
      split
      · rw [kept, kept, dropped, ih]
      · rw [kept, kept, ih]

/-- Where there is no capital, no word begins. -/
theorem separateWords_of_not_isUpper (small : ∀ c ∈ name, c.isUpper = false) :
    name.separateWords = name := by
  induction name with
  | nil => rfl
  | cons c rest ih =>
      have others := (List.forall_mem_cons.1 small).2
      have whole : ¬ breaksAfter c rest = true := by
        cases rest with
        | nil => simp [breaksAfter]
        | cons d more => simp [breaksAfter, others d List.mem_cons_self]
      rw [separateWords, if_neg whole, ih others]

/-- **Snake case changes letter case and underscores only.** -/
theorem unscored_snakeCase (ascii : name.IsAscii) :
    name.snakeCase.unscored = name.lower.unscored := by
  rw [snakeCase, unscored_lower ascii.separateWords, unscored_separateWords, unscored_lower ascii]

/-- **A stem is its own stem.** -/
theorem snakeCase_snakeCase_of_ascii (ascii : name.IsAscii) :
    name.snakeCase.snakeCase = name.snakeCase := by
  have asciiStem : name.snakeCase.IsAscii := ascii.separateWords.lower
  have small : ∀ c ∈ name.snakeCase, c.isUpper = false := by
    rw [snakeCase, lower_of_ascii ascii.separateWords]
    exact List.forall_mem_map.2 fun c member =>
      CodePoint.not_isUpper_lower (ascii.separateWords c member)
  have same : name.snakeCase.map (·.lower) = name.snakeCase :=
    (List.map_congr_left fun c member =>
      CodePoint.lower_of_not_isUpper (asciiStem c member) (small c member)).trans (List.map_id _)
  rw [snakeCase, separateWords_of_not_isUpper small, lower_of_ascii asciiStem, same]

/-! ## Names made of words -/

/-- A word: a small letter, and behind it small letters and digits, at least one. -/
inductive IsNameWord : Text → Prop where
  | intro {first : CodePoint} {rest : Text} (letter : first.isLower = true) (nonempty : rest ≠ [])
      (small : ∀ c ∈ rest, c.isLower = true ∨ c.isDigit = true) : IsNameWord (first :: rest)

/-- The word with a capital at its front. -/
def capitalized : Text → Text
  | [] => []
  | c :: rest => c.capital :: rest

/-- The words with capitals at their fronts, one behind the other. -/
def pascalCase (words : List Text) : Text := words.flatMap capitalized

theorem pascalCase_cons (word : Text) (words : List Text) :
    pascalCase (word :: words) = word.capitalized ++ pascalCase words := List.flatMap_cons

/-- The name is made of words in this way. -/
def IsPascalCase (name : Text) : Prop :=
  ∃ words, (∀ word ∈ words, IsNameWord word) ∧ name = pascalCase words

/-- What is put in where a word has ended: an underscore, if a capital comes next. -/
def wordBreak (rest : Text) : Text := if rest.head?.any (·.isUpper) then "_" else []

/-- A run of small letters and digits is broken at its end only, and there by a capital. -/
theorem separateWords_run {run : Text} (nonempty : run ≠ [])
    (small : ∀ c ∈ run, c.isLower = true ∨ c.isDigit = true) (rest : Text) :
    separateWords (run ++ rest) = run ++ (wordBreak rest ++ separateWords rest) := by
  induction run with
  | nil => exact absurd rfl nonempty
  | cons c run ih =>
      obtain ⟨first, others⟩ := List.forall_mem_cons.1 small
      cases run with
      | nil =>
          have breaks : breaksAfter c rest = rest.head?.any (·.isUpper) := by
            cases rest with
            | nil => rfl
            | cons d more => rcases first with letter | digit <;> simp [breaksAfter, *]
          rw [List.singleton_append, separateWords, breaks, wordBreak]
          split <;> rfl
      | cons d run =>
          have inside : breaksAfter c (d :: run ++ rest) = false := by
            have notUpper := CodePoint.not_isUpper_of_small (others d List.mem_cons_self)
            simp [breaksAfter, notUpper]
          have behind := ih (List.cons_ne_nil d run) others
          rw [List.cons_append, separateWords, inside, if_neg Bool.false_ne_true, behind]
          rfl

namespace IsNameWord

variable {word : Text}

theorem separateWords_append (isWord : IsNameWord word) (rest : Text) :
    separateWords (word.capitalized ++ rest) =
      word.capitalized ++ (wordBreak rest ++ separateWords rest) := by
  cases isWord with
  | @intro first run letter nonempty small =>
      obtain ⟨d, more, rfl⟩ := List.exists_cons_of_ne_nil nonempty
      -- the third mark of a new word asks for a capital behind this one, and there is none
      have inside : breaksAfter first.capital (d :: more ++ rest) = false := by
        have notUpper := CodePoint.not_isUpper_of_small (small d List.mem_cons_self)
        simp [breaksAfter, notUpper]
      have behind := separateWords_run nonempty small rest
      rw [capitalized, List.cons_append, separateWords, inside, if_neg Bool.false_ne_true, behind]
      rfl

theorem wordBreak_append (isWord : IsNameWord word) (rest : Text) :
    wordBreak (word.capitalized ++ rest) = "_" := by
  cases isWord with
  | intro letter _ _ => exact if_pos (CodePoint.isUpper_capital letter)

theorem isAscii (isWord : IsNameWord word) : word.capitalized.IsAscii := by
  cases isWord with
  | intro letter _ small =>
      refine List.forall_mem_cons.2 ⟨?_, fun c member => ?_⟩
      · have bounds := CodePoint.isUpper_iff.1 (CodePoint.isUpper_capital letter)
        omega
      · have bounds := small c member
        rw [CodePoint.isLower_iff, CodePoint.isDigit_iff] at bounds
        omega

theorem lower_capitalized (isWord : IsNameWord word) : word.capitalized.map (·.lower) = word := by
  cases isWord with
  | @intro first rest letter _ small =>
      have same : ∀ c ∈ rest, c.lower = c := fun c member =>
        CodePoint.lower_of_small (small c member)
      rw [capitalized, List.map_cons, CodePoint.lower_capital letter, List.map_congr_left same]
      exact congrArg _ (List.map_id _)

theorem ne_nil (isWord : IsNameWord word) : word ≠ [] := by
  cases isWord
  exact List.cons_ne_nil _ _

theorem underscore_not_mem (isWord : IsNameWord word) : CodePoint.ofChar '_' ∉ word := by
  cases isWord with
  | intro letter _ small =>
      rw [List.mem_cons, not_or]
      constructor
      · rintro rfl
        exact absurd letter (by decide)
      · intro member
        exact absurd (small _ member) (by decide)

end IsNameWord

variable {words : List Text}

/-- **Underscores go between the words, and nowhere else.** -/
theorem separateWords_pascalCase (areWords : ∀ word ∈ words, IsNameWord word) :
    (pascalCase words).separateWords = joined "_" (words.map capitalized) := by
  induction words with
  | nil => rfl
  | cons word words ih =>
      obtain ⟨isWord, others⟩ := List.forall_mem_cons.1 areWords
      rw [pascalCase_cons, isWord.separateWords_append, ih others]
      cases words with
      | nil =>
          rw [List.map_singleton, joined_singleton]
          exact List.append_nil _
      | cons next words =>
          have opened := (others next List.mem_cons_self).wordBreak_append (pascalCase words)
          rw [pascalCase_cons, opened, List.map_cons, List.map_cons, List.map_cons,
            joined_cons_cons]

/-- **The stem of a name made of words is the words with underscores between them.** -/
theorem snakeCase_pascalCase (areWords : ∀ word ∈ words, IsNameWord word) :
    (pascalCase words).snakeCase = joined "_" words := by
  have ascii : (pascalCase words).IsAscii := by
    intro c member
    obtain ⟨word, inWords, inside⟩ := List.mem_flatMap.1 member
    exact (areWords word inWords).isAscii c inside
  have same : (words.map capitalized).map (List.map (·.lower)) = words := by
    rw [List.map_map]
    refine (List.map_congr_left fun word member => ?_).trans (List.map_id words)
    exact (areWords word member).lower_capitalized
  rw [snakeCase, lower_of_ascii ascii.separateWords, separateWords_pascalCase areWords,
    map_joined, same]
  rfl

/-- Words are told apart by the underscores between them. -/
theorem eq_of_joined {others : List Text} (areWords : ∀ word ∈ words, IsNameWord word)
    (areOthers : ∀ word ∈ others, IsNameWord word)
    (same : joined "_" words = joined "_" others) : words = others := by
  have pieces {list : List Text} (areWords : ∀ word ∈ list, IsNameWord word) (some_ : list ≠ []) :
      (joined "_" list).pieces '_' = list :=
    pieces_joined some_ fun word member => (areWords word member).underscore_not_mem
  have filled {word : Text} {more : List Text} (areWords : ∀ w ∈ word :: more, IsNameWord w) :
      joined "_" (word :: more) ≠ [] :=
    joined_ne_nil (areWords word List.mem_cons_self).ne_nil more
  cases words with
  | nil =>
      cases others with
      | nil => rfl
      | cons other others => exact absurd same.symm (filled areOthers)
  | cons word words =>
      cases others with
      | nil => exact absurd same (filled areWords)
      | cons other others =>
          rw [← pieces areWords (List.cons_ne_nil _ _), same,
            pieces areOthers (List.cons_ne_nil _ _)]

/-- Names made of words are told apart by their stems. -/
theorem IsPascalCase.eq_of_snakeCase {first second : Text} (ofWords : first.IsPascalCase)
    (ofOthers : second.IsPascalCase) (same : first.snakeCase = second.snakeCase) :
    first = second := by
  obtain ⟨words, areWords, rfl⟩ := ofWords
  obtain ⟨others, areOthers, rfl⟩ := ofOthers
  rw [snakeCase_pascalCase areWords, snakeCase_pascalCase areOthers] at same
  rw [eq_of_joined areWords areOthers same]

/-- **A stem is faithful to its name.**  The stem of a name made of words is the words with
underscores between them, so definitions with such names have one module stem only if they have
one name.  In ASCII a stem and its name differ in letter case and underscores only, and so do
names with one stem; and a stem is its own stem. -/
theorem snakeCase_faithful :
    (∀ words : List Text, (∀ word ∈ words, IsNameWord word) →
      (pascalCase words).snakeCase = joined "_" words) ∧
    (∀ first second : Interface, first.name.IsPascalCase → second.name.IsPascalCase →
      Package.moduleStem first = Package.moduleStem second → first.name = second.name) ∧
    (∀ name : Text, name.IsAscii → name.snakeCase.unscored = name.lower.unscored) ∧
    (∀ first second : Text, first.IsAscii → second.IsAscii →
      first.snakeCase = second.snakeCase → first.lower.unscored = second.lower.unscored) ∧
    ∀ name : Text, name.IsAscii → name.snakeCase.snakeCase = name.snakeCase := by
  refine ⟨fun words areWords => snakeCase_pascalCase areWords, ?_,
    fun name ascii => unscored_snakeCase ascii, ?_,
    fun name ascii => snakeCase_snakeCase_of_ascii ascii⟩
  · intro first second ofWords ofOthers same
    exact ofWords.eq_of_snakeCase ofOthers (List.append_cancel_left same)
  · intro first second ascii asciiSecond same
    rw [← unscored_snakeCase ascii, same, unscored_snakeCase asciiSecond]

/-- The words of `Int32MultiArray`. -/
def arrayWords : List Text := ["int32", "multi", "array"]

theorem areWords_arrayWords : ∀ word ∈ arrayWords, IsNameWord word := by
  intro word member
  simp only [arrayWords, List.mem_cons, List.not_mem_nil, or_false] at member
  rcases member with rfl | rfl | rfl
  all_goals exact .intro (by decide) (by decide) (by decide)

/-- A name of three words, two definitions that have it, and two names of one stem. -/
theorem snakeCase_faithful_spellings :
    (∀ word ∈ arrayWords, IsNameWord word) ∧
      Text.snakeCase "Int32MultiArray" = "int32_multi_array" ∧
      (Interface.message ⟨"p", "Int32MultiArray", [], []⟩).name =
        (Interface.message ⟨"q", pascalCase arrayWords, [], []⟩).name ∧
      (∀ name ∈ (["HTTPServer", "Http_Server"] : List Text), name.IsAscii) ∧
      Text.snakeCase "HTTPServer" = Text.snakeCase "Http_Server" ∧
      Text.unscored (Text.lower "HTTPServer") = Text.unscored (Text.lower "Http_Server") ∧
      Text.unscored (Text.snakeCase "Http_Server") = "httpserver" ∧
      Text.snakeCase (Text.snakeCase "Http_Server") = "http_server" := by
  obtain ⟨stem, apart, spelled, alike, again⟩ := snakeCase_faithful
  have isPascalCase : IsPascalCase "Int32MultiArray" :=
    ⟨arrayWords, areWords_arrayWords, by decide⟩
  have ascii : ∀ name ∈ (["HTTPServer", "Http_Server"] : List Text), name.IsAscii := by decide
  have asciiFirst := ascii _ List.mem_cons_self
  have asciiSecond := ascii _ (List.mem_cons_of_mem _ List.mem_cons_self)
  have oneStem : Text.snakeCase "HTTPServer" = Text.snakeCase "Http_Server" := by decide
  refine ⟨areWords_arrayWords, stem arrayWords areWords_arrayWords, ?_, ascii, oneStem,
    alike _ _ asciiFirst asciiSecond oneStem, (spelled _ asciiSecond).trans (by decide),
    (again _ asciiSecond).trans (by decide)⟩
  exact apart (.message ⟨"p", "Int32MultiArray", [], []⟩)
    (.message ⟨"q", pascalCase arrayWords, [], []⟩) isPascalCase
    ⟨arrayWords, areWords_arrayWords, rfl⟩ (by decide)

end Text

end RosInterface
