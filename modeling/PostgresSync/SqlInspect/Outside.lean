import PostgresSync.SqlInspect.Inspect

namespace PostgresSync.SqlInspect

/-! What stands outside the quoted and commented regions of a clause.  A reader
is at a position that no region covers, knows whether the character before it
continues a word, and either takes one ordinary character or passes over a whole
region.  `identifiers` says whether a double quote opens a region for it, as in
SQL, or is an ordinary character, as for `SanitizeClause`. -/

def doubled (quote : Char) (content : List Char) : List Char :=
  content.flatMap fun char => if char = quote then [quote, quote] else [char]

def opens (identifiers : Bool) : List Char → Bool
  | '\x27' :: _ => true
  | '"' :: _ => identifiers
  | '-' :: '-' :: _ => true
  | '/' :: '*' :: _ => true
  | _ => false

structure Reader where
  inWord : Bool
  text : List Char

inductive Reader.Step (identifiers : Bool) : Reader → Reader → Prop where
  | plain (inWord : Bool) (char : Char) (rest : List Char)
      (ordinary : opens identifiers (char :: rest) = false) :
      Step identifiers ⟨inWord, char :: rest⟩ ⟨isWordChar char, rest⟩
  | literal (inWord : Bool) (content rest : List Char)
      (closed : rest.head? ≠ some '\x27') :
      Step identifiers ⟨inWord, '\x27' :: (doubled '\x27' content ++ '\x27' :: rest)⟩
        ⟨false, rest⟩
  | identifier (inWord : Bool) (content rest : List Char)
      (recognised : identifiers = true) (closed : rest.head? ≠ some '"') :
      Step identifiers ⟨inWord, '"' :: (doubled '"' content ++ '"' :: rest)⟩
        ⟨false, rest⟩
  | lineComment (inWord : Bool) (content rest : List Char)
      (oneLine : '\n' ∉ content) :
      Step identifiers ⟨inWord, '-' :: '-' :: (content ++ '\n' :: rest)⟩ ⟨false, rest⟩
  | blockComment (inWord : Bool) (content rest : List Char)
      (unclosed : ¬ ['*', '/'] <:+: content) :
      Step identifiers ⟨inWord, '/' :: '*' :: (content ++ '*' :: '/' :: rest)⟩
        ⟨false, rest⟩

def Reader.Reaches (identifiers : Bool) : Reader → Reader → Prop :=
  Relation.ReflTransGen (Reader.Step identifiers)

/-- A keyword of SQL, in any case. -/
def spelledInSql (word found : List Char) : Prop := found.map Char.toLower = word

/-- A match of the pattern's `(?i)`. -/
def spelledInPattern (word found : List Char) : Prop :=
  List.Forall₂ (fun letter char => foldsTo letter char = true) word found

/-- One of the keywords stands as a whole word where no region covers it. -/
def Reader.Finds (identifiers : Bool) (spelled : List Char → List Char → Prop)
    (start : Reader) : Prop :=
  ∃ inWord found after, ∃ word ∈ dependencyKeywords,
    start.Reaches identifiers ⟨inWord, found ++ after⟩ ∧ spelled word found ∧
    boundary inWord (found ++ after) = true ∧
    boundary (found.getLast?.any isWordChar) after = true

/-- A keyword outside the literals, quoted identifiers and comments of SQL. -/
def keywordOutside (clause : String) : Prop :=
  Reader.Finds true spelledInSql ⟨false, clause.toList⟩

/-- A keyword outside the literals and comments that are there when a double quote
is an ordinary character, so that an apostrophe, two dashes or a slash and a star
within a quoted identifier open one. -/
def keywordOutsideUnquoted (clause : String) : Prop :=
  Reader.Finds false spelledInPattern ⟨false, clause.toList⟩

section Sanitised

attribute [local simp] sanitizeFrom

theorem not_wordChar_of_opens {identifiers : Bool} {text : List Char}
    (opened : opens identifiers text = true) : text.head?.any isWordChar = false := by
  unfold opens at opened
  split at opened
  case h_5 => cases opened
  all_goals rfl

theorem sanitizeFrom_plain {char : Char} {rest : List Char}
    (ordinary : opens false (char :: rest) = false) :
    sanitizeFrom .plain (char :: rest) = char :: sanitizeFrom .plain rest := by
  rw [sanitizeFrom]
  · rintro rfl
    cases ordinary
  · rintro tail rfl rfl
    cases ordinary
  · rintro tail rfl rfl
    cases ordinary

theorem sanitizeFrom_opens {text : List Char} (opened : opens false text = true) :
    ∃ sanitized, sanitizeFrom .plain text = ' ' :: sanitized := by
  unfold opens at opened
  split at opened
  case h_2 => cases opened
  case h_5 => cases opened
  all_goals simp

theorem head_sanitizeFrom (text : List Char) :
    (sanitizeFrom .plain text).head?.any isWordChar = text.head?.any isWordChar := by
  cases opened : opens false text with
  | true =>
      obtain ⟨sanitized, equal⟩ := sanitizeFrom_opens opened
      rw [equal, not_wordChar_of_opens opened]
      rfl
  | false =>
      cases text with
      | nil => rfl
      | cons char rest =>
          rw [sanitizeFrom_plain opened]
          rfl

theorem sanitizeFrom_doubled (content rest : List Char) (closed : rest.head? ≠ some '\x27') :
    sanitizeFrom .singleQuoted (doubled '\x27' content ++ '\x27' :: rest) =
      ' ' :: sanitizeFrom .plain rest := by
  induction content with
  | nil =>
      change sanitizeFrom .singleQuoted ('\x27' :: rest) = _
      rw [sanitizeFrom]
      rintro next rfl
      exact closed rfl
  | cons char content hypothesis =>
      by_cases quote : char = '\x27'
      · subst quote
        simpa [doubled] using hypothesis
      · have own : doubled '\x27' (char :: content) = char :: doubled '\x27' content := by
          simp [doubled, quote]
        rw [own, List.cons_append, sanitizeFrom]
        · exact hypothesis
        · rintro - same -
          exact quote same
        · intro same
          exact quote same

theorem sanitizeFrom_line (content rest : List Char) (oneLine : '\n' ∉ content) :
    sanitizeFrom .lineComment (content ++ '\n' :: rest) =
      ' ' :: sanitizeFrom .plain rest := by
  induction content with
  | nil => simp
  | cons char content hypothesis =>
      rw [List.mem_cons, not_or] at oneLine
      rw [List.cons_append, sanitizeFrom]
      · exact hypothesis oneLine.2
      · intro same
        exact oneLine.1 same.symm

theorem sanitizeFrom_block (content rest : List Char)
    (unclosed : ¬ ['*', '/'] <:+: content) :
    sanitizeFrom .blockComment (content ++ '*' :: '/' :: rest) =
      ' ' :: sanitizeFrom .plain rest := by
  induction content with
  | nil => simp
  | cons char content hypothesis =>
      rw [List.cons_append, sanitizeFrom]
      · exact hypothesis fun within => unclosed (within.trans (List.suffix_cons _ _).isInfix)
      · rintro next same start
        -- the star of this character and a slash would close the comment here
        cases content with
        | nil => cases start
        | cons second content =>
            obtain rfl : second = '/' := by injection start
            exact unclosed (same ▸ (List.prefix_append ['*', '/'] content).isInfix)

theorem sanitizeFrom_singleQuoted (text : List Char) :
    sanitizeFrom .singleQuoted text = [] ∨ ∃ content rest,
      text = doubled '\x27' content ++ '\x27' :: rest ∧ rest.head? ≠ some '\x27' := by
  generalize quoted : SanitizeMode.singleQuoted = mode
  fun_induction sanitizeFrom mode text with
  | case1 => exact .inl rfl
  | case6 rest hypothesis =>
      refine (hypothesis rfl).imp id ?_
      rintro ⟨content, after, rfl, closed⟩
      exact ⟨'\x27' :: content, after, rfl, closed⟩
  | case7 rest other =>
      refine .inr ⟨[], rest, rfl, ?_⟩
      intro next
      obtain ⟨tail, rfl⟩ := List.head?_eq_some_iff.mp next
      exact other tail rfl
  | case8 char rest _ other hypothesis =>
      refine (hypothesis rfl).imp id ?_
      rintro ⟨content, after, rfl, closed⟩
      have own : char ≠ '\x27' := other
      exact ⟨char :: content, after, by simp [doubled, own], closed⟩
  | _ => cases quoted

theorem sanitizeFrom_lineComment (text : List Char) :
    sanitizeFrom .lineComment text = [] ∨ ∃ content rest,
      text = content ++ '\n' :: rest ∧ '\n' ∉ content := by
  generalize commented : SanitizeMode.lineComment = mode
  fun_induction sanitizeFrom mode text with
  | case1 => exact .inl rfl
  | case2 rest => exact .inr ⟨[], rest, rfl, List.not_mem_nil⟩
  | case3 char rest other hypothesis =>
      refine (hypothesis rfl).imp id ?_
      rintro ⟨content, after, rfl, oneLine⟩
      refine ⟨char :: content, after, rfl, ?_⟩
      rw [List.mem_cons, not_or]
      exact ⟨fun same => other same.symm, oneLine⟩
  | _ => cases commented

theorem sanitizeFrom_blockComment (text : List Char) :
    sanitizeFrom .blockComment text = [] ∨ ∃ content rest,
      text = content ++ '*' :: '/' :: rest ∧ ¬ ['*', '/'] <:+: content := by
  generalize commented : SanitizeMode.blockComment = mode
  fun_induction sanitizeFrom mode text with
  | case1 => exact .inl rfl
  | case4 rest => exact .inr ⟨[], rest, rfl, by simp⟩
  | case5 char rest other hypothesis =>
      refine (hypothesis rfl).imp id ?_
      rintro ⟨content, after, rfl, unclosed⟩
      refine ⟨char :: content, after, rfl, ?_⟩
      intro within
      rw [List.infix_cons_iff] at within
      refine within.elim ?_ unclosed
      rintro ⟨tail, same⟩
      obtain ⟨star, rest⟩ := List.cons.inj same
      subst rest
      exact other _ star.symm rfl
  | _ => cases commented

end Sanitised

section Keywords

variable {word text found : List Char} {inWord : Bool} {char : Char} {next start : Reader}

theorem matchWord_eq_some_iff {rest : List Char} {previous last : Bool} :
    matchWord word previous text = some (last, rest) ↔
      ∃ found, text = found ++ rest ∧ spelledInPattern word found ∧
        last = (found.getLast?.map isWordChar).getD previous := by
  induction word generalizing text previous with
  | nil =>
      simp only [matchWord, spelledInPattern, List.forall₂_nil_left_iff, Option.some.injEq,
        Prod.mk.injEq]
      constructor
      · rintro ⟨rfl, rfl⟩
        exact ⟨[], rfl, rfl, rfl⟩
      · rintro ⟨found, rfl, rfl, rfl⟩
        exact ⟨rfl, rfl⟩
  | cons letter letters hypothesis =>
      cases text with
      | nil =>
          simp only [matchWord, reduceCtorEq, false_iff]
          rintro ⟨found, empty, spelled, -⟩
          obtain ⟨rfl, -⟩ := List.append_eq_nil_iff.mp empty.symm
          cases spelled
      | cons char text =>
          rw [matchWord]
          split
          case isTrue folds =>
            rw [hypothesis]
            constructor
            · rintro ⟨found, rfl, spelled, rfl⟩
              refine ⟨char :: found, rfl, .cons folds spelled, ?_⟩
              rw [List.getLast?_cons]
              cases found.getLast? <;> rfl
            · rintro ⟨found, start, spelled, rfl⟩
              cases spelled with
              | cons folds spelled =>
                  obtain ⟨rfl, rfl⟩ := List.cons.inj start
                  refine ⟨_, rfl, spelled, ?_⟩
                  rw [List.getLast?_cons]
                  cases List.getLast? _ <;> rfl
          case isFalse differs =>
            simp only [reduceCtorEq, false_iff]
            rintro ⟨found, start, spelled, -⟩
            cases spelled with
            | cons folds spelled =>
                obtain ⟨rfl, rfl⟩ := List.cons.inj start
                exact differs folds

theorem dependencyKeywords_letters :
    ∀ word ∈ dependencyKeywords, word ≠ [] ∧ ∀ letter ∈ word, letter.isLower = true := by
  simp [dependencyKeywords]

theorem keywordAt_iff (keyword : word ∈ dependencyKeywords) :
    keywordAt inWord text word = true ↔ ∃ found after, text = found ++ after ∧
      spelledInPattern word found ∧ boundary inWord (found ++ after) = true ∧
      boundary (found.getLast?.any isWordChar) after = true := by
  have last {found : List Char} (spelled : spelledInPattern word found) :
      (found.getLast?.map isWordChar).getD inWord = found.getLast?.any isWordChar := by
    cases spelled with
    | nil => exact absurd rfl (dependencyKeywords_letters _ keyword).1
    | cons => simp [List.getLast?_cons]
  simp only [keywordAt, Bool.and_eq_true, Option.any_eq_true, Prod.exists]
  constructor
  · rintro ⟨starts, end', after, matched, ends⟩
    obtain ⟨found, rfl, spelled, rfl⟩ := matchWord_eq_some_iff.mp matched
    exact ⟨found, after, rfl, spelled, starts, last spelled ▸ ends⟩
  · rintro ⟨found, after, rfl, spelled, starts, ends⟩
    refine ⟨starts, _, after, matchWord_eq_some_iff.mpr ⟨found, rfl, spelled, rfl⟩, ?_⟩
    rw [last spelled]
    exact ends

def isFoldedLetter (char : Char) : Bool := char.isAlpha || char = '\u017f'

theorem isFoldedLetter_of_foldsTo {letter : Char} (lower : letter.isLower = true)
    (folds : foldsTo letter char = true) : isFoldedLetter char = true := by
  simp only [foldsTo, isFoldedLetter, Char.isAlpha, Bool.or_eq_true, Bool.and_eq_true,
    decide_eq_true_eq] at folds ⊢
  obtain same | ⟨-, long⟩ := folds
  · refine .inl ?_
    -- only a capital letter is changed
    cases upper : char.isUpper with
    | true => exact .inl rfl
    | false =>
        refine .inr ?_
        rw [Char.toLower, dif_neg] at same
        · exact same ▸ lower
        · simpa [Char.isUpper] using upper
  · exact .inr long

theorem spelled_letters (keyword : word ∈ dependencyKeywords)
    (spelled : spelledInPattern word found) : ∀ char ∈ found, isFoldedLetter char = true := by
  have lower := (dependencyKeywords_letters word keyword).2
  clear keyword
  induction spelled with
  | nil => nofun
  | cons folds _ hypothesis =>
      rw [List.forall_mem_cons] at lower ⊢
      exact ⟨isFoldedLetter_of_foldsTo lower.1 folds, hypothesis lower.2⟩

theorem opens_letter {identifiers : Bool} (letter : isFoldedLetter char = true)
    (rest : List Char) : opens identifiers (char :: rest) = false := by
  unfold opens
  split
  case h_5 => rfl
  all_goals
    rename_i start
    obtain ⟨rfl, -⟩ := List.cons.inj start
    exact absurd letter (by decide)

theorem sanitizeFrom_letters (letters : ∀ char ∈ found, isFoldedLetter char = true)
    (after : List Char) :
    sanitizeFrom .plain (found ++ after) = found ++ sanitizeFrom .plain after := by
  induction found with
  | nil => rfl
  | cons char found hypothesis =>
      rw [List.forall_mem_cons] at letters
      rw [List.cons_append, sanitizeFrom_plain (opens_letter letters.1 _), hypothesis letters.2]
      rfl

theorem letters_of_sanitizeFrom {after : List Char}
    (letters : ∀ char ∈ found, isFoldedLetter char = true)
    (equal : sanitizeFrom .plain text = found ++ after) :
    ∃ tail, text = found ++ tail ∧ after = sanitizeFrom .plain tail := by
  induction found generalizing text with
  | nil => exact ⟨text, rfl, equal.symm⟩
  | cons char found hypothesis =>
      rw [List.forall_mem_cons] at letters
      cases opened : opens false text with
      | true =>
          obtain ⟨sanitized, blank⟩ := sanitizeFrom_opens opened
          obtain ⟨rfl, -⟩ := List.cons.inj (blank.symm.trans equal)
          exact absurd letters.1 (by decide)
      | false =>
          cases text with
          | nil => cases equal
          | cons first text =>
              rw [sanitizeFrom_plain opened] at equal
              obtain ⟨rfl, later⟩ := List.cons.inj equal
              obtain ⟨tail, rfl, rest⟩ := hypothesis letters.2 later
              exact ⟨tail, rfl, rest⟩

theorem matchesKeyword_iff :
    matchesKeyword inWord text = true ↔
      (∃ word ∈ dependencyKeywords, keywordAt inWord text word = true) ∨
        ∃ char rest, text = char :: rest ∧ matchesKeyword (isWordChar char) rest = true := by
  cases text with
  | nil =>
      simp only [matchesKeyword, Bool.false_eq_true, reduceCtorEq, false_and, exists_const,
        or_false, false_iff, not_exists, not_and]
      intro word keyword found
      obtain ⟨found, after, empty, spelled, -⟩ := (keywordAt_iff keyword).mp found
      obtain ⟨rfl, -⟩ := List.append_eq_nil_iff.mp empty.symm
      cases spelled
      exact (dependencyKeywords_letters _ keyword).1 rfl
  | cons char rest =>
      rw [matchesKeyword, Bool.or_eq_true, List.any_eq_true]
      refine or_congr Iff.rfl ⟨fun later => ⟨char, rest, rfl, later⟩, ?_⟩
      rintro ⟨char, rest, start, later⟩
      cases start
      exact later

theorem matchesKeyword_blank (inWord : Bool) (text : List Char) :
    matchesKeyword inWord (' ' :: text) = matchesKeyword false text := by
  rw [Bool.eq_iff_iff, matchesKeyword_iff]
  constructor
  · rintro (⟨word, keyword, found⟩ | ⟨char, rest, start, later⟩)
    · obtain ⟨found, after, start, spelled, -⟩ := (keywordAt_iff keyword).mp found
      have letters := spelled_letters keyword spelled
      cases spelled with
      | nil => exact absurd rfl (dependencyKeywords_letters _ keyword).1
      | cons =>
          obtain ⟨rfl, -⟩ := List.cons.inj start
          exact absurd (letters ' ' List.mem_cons_self) (by decide)
    · cases start
      exact later
  · intro later
    exact .inr ⟨' ', text, rfl, later⟩

theorem not_isSpace_of_letter (letter : isFoldedLetter char = true) :
    isSpace char = false := by
  rw [isFoldedLetter, Bool.or_eq_true, decide_eq_true_eq] at letter
  obtain alpha | rfl := letter
  · rw [Bool.eq_false_iff]
    intro space
    rw [isSpace, Bool.or_eq_true, decide_eq_true_eq] at space
    obtain listed | ranged := space
    · simp only [List.mem_cons, List.not_mem_nil, or_false] at listed
      rcases listed with rfl | rfl | rfl | rfl | rfl | rfl | rfl | rfl | rfl | rfl | rfl | rfl |
        rfl | rfl <;> exact absurd alpha (by decide)
    · simp [Char.le_def, UInt32.le_iff_toNat_le] at ranged
      simp [Char.isAlpha, Char.isUpper, Char.isLower, UInt32.le_iff_toNat_le] at alpha
      omega
  · decide

theorem not_isBlank_of_matchesKeyword (matched : matchesKeyword inWord text = true) :
    isBlank (String.ofList text) = false := by
  rw [isBlank, String.toList_ofList]
  induction text generalizing inWord with
  | nil => cases matched
  | cons char rest hypothesis =>
      rw [List.all_cons, Bool.and_eq_false_iff]
      obtain ⟨word, keyword, here⟩ | ⟨_, _, start, later⟩ := matchesKeyword_iff.mp matched
      · obtain ⟨found, after, equal, spelled, -⟩ := (keywordAt_iff keyword).mp here
        have letters := spelled_letters keyword spelled
        cases spelled with
        | nil => exact absurd rfl (dependencyKeywords_letters _ keyword).1
        | cons =>
            obtain ⟨rfl, -⟩ := List.cons.inj equal
            exact .inl (not_isSpace_of_letter (letters _ List.mem_cons_self))
      · cases start
        exact .inr (hypothesis later)

theorem Reader.Step.sanitized (step : Reader.Step false ⟨inWord, text⟩ next) :
    (opens false text = false ∧ ∃ char, next.inWord = isWordChar char ∧
      sanitizeFrom .plain text = char :: sanitizeFrom .plain next.text) ∨
    next.inWord = false ∧
      sanitizeFrom .plain text = ' ' :: ' ' :: sanitizeFrom .plain next.text := by
  cases step with
  | plain _ char rest ordinary => exact .inl ⟨ordinary, char, rfl, sanitizeFrom_plain ordinary⟩
  | literal _ content rest closed =>
      refine .inr ⟨rfl, ?_⟩
      rw [sanitizeFrom, sanitizeFrom_doubled content rest closed]
  | lineComment _ content rest oneLine =>
      refine .inr ⟨rfl, ?_⟩
      rw [sanitizeFrom, sanitizeFrom_line content rest oneLine]
  | blockComment _ content rest unclosed =>
      refine .inr ⟨rfl, ?_⟩
      rw [sanitizeFrom, sanitizeFrom_block content rest unclosed]
  | identifier _ _ _ recognised => cases recognised

theorem Reader.Step.matched (step : Reader.Step false start next)
    (later : matchesKeyword next.inWord (sanitizeFrom .plain next.text) = true) :
    matchesKeyword start.inWord (sanitizeFrom .plain start.text) = true := by
  obtain ⟨-, char, same, equal⟩ | ⟨outside, equal⟩ := step.sanitized
  · rw [equal, matchesKeyword_iff]
    exact .inr ⟨char, _, rfl, same ▸ later⟩
  · rw [equal, matchesKeyword_blank, matchesKeyword_blank, ← outside]
    exact later

theorem matchesKeyword_of_finds (finds : start.Finds false spelledInPattern) :
    matchesKeyword start.inWord (sanitizeFrom .plain start.text) = true := by
  obtain ⟨inWord, found, after, word, keyword, reaches, spelled, starts, ends⟩ := finds
  induction reaches using Relation.ReflTransGen.head_induction_on with
  | refl =>
      have sanitized := sanitizeFrom_letters (spelled_letters keyword spelled) after
      refine matchesKeyword_iff.mpr (.inl ⟨word, keyword, (keywordAt_iff keyword).mpr
        ⟨found, _, sanitized, spelled, ?_, ?_⟩⟩)
      · rwa [← sanitized, boundary, head_sanitizeFrom]
      · rwa [boundary, head_sanitizeFrom]
  | head step _ hypothesis => exact step.matched hypothesis

/-- At a position where a region begins, either the region lasts to the end of the
text or the reader passes over it. -/
theorem opens_cases (inWord : Bool) (opened : opens false text = true) :
    sanitizeFrom .plain text = [' '] ∨
      ∃ rest, rest.length < text.length ∧ Reader.Step false ⟨inWord, text⟩ ⟨false, rest⟩ := by
  unfold opens at opened
  split at opened
  case h_1 content =>
    rw [sanitizeFrom]
    obtain none | ⟨content, rest, rfl, closed⟩ := sanitizeFrom_singleQuoted content
    · exact .inl (none ▸ rfl)
    · refine .inr ⟨rest, by simp; omega, .literal inWord content rest closed⟩
  case h_3 content =>
    rw [sanitizeFrom]
    obtain none | ⟨content, rest, rfl, oneLine⟩ := sanitizeFrom_lineComment content
    · exact .inl (none ▸ rfl)
    · refine .inr ⟨rest, by simp; omega, .lineComment inWord content rest oneLine⟩
  case h_4 content =>
    rw [sanitizeFrom]
    obtain none | ⟨content, rest, rfl, unclosed⟩ := sanitizeFrom_blockComment content
    · exact .inl (none ▸ rfl)
    · refine .inr ⟨rest, by simp; omega, .blockComment inWord content rest unclosed⟩
  all_goals cases opened

theorem Reader.Finds.head {identifiers : Bool} {spelled : List Char → List Char → Prop}
    (step : Reader.Step identifiers start next)
    (finds : next.Finds identifiers spelled) : start.Finds identifiers spelled := by
  obtain ⟨inWord, found, after, word, keyword, reaches, rest⟩ := finds
  exact ⟨inWord, found, after, word, keyword, .head step reaches, rest⟩

theorem finds_of_matchesKeyword
    (matched : matchesKeyword inWord (sanitizeFrom .plain text) = true) :
    Reader.Finds false spelledInPattern ⟨inWord, text⟩ := by
  -- a region or one character is taken at a time, so the text gets shorter
  induction length : text.length using Nat.strongRecOn generalizing inWord text with
  | ind size hypothesis =>
      subst length
      cases opened : opens false text with
      | true =>
          obtain blank | ⟨rest, shorter, step⟩ := opens_cases inWord opened
          · rw [blank, matchesKeyword_blank] at matched
            cases matched
          · refine .head step (hypothesis _ shorter ?_ rfl)
            obtain ⟨ordinary, -⟩ | ⟨-, equal⟩ := step.sanitized
            · exact absurd ordinary (by rw [opened]; decide)
            · rwa [equal, matchesKeyword_blank, matchesKeyword_blank] at matched
      | false =>
          obtain ⟨word, keyword, here⟩ | ⟨char, rest, start, later⟩ :=
            matchesKeyword_iff.mp matched
          · obtain ⟨found, after, equal, spelled, starts, ends⟩ := (keywordAt_iff keyword).mp here
            obtain ⟨tail, rfl, rfl⟩ :=
              letters_of_sanitizeFrom (spelled_letters keyword spelled) equal
            refine ⟨inWord, found, tail, word, keyword, .refl, spelled, ?_, ?_⟩
            · rwa [← equal, boundary, head_sanitizeFrom] at starts
            · rwa [boundary, head_sanitizeFrom] at ends
          · cases text with
            | nil => cases start
            | cons first text =>
                rw [sanitizeFrom_plain opened] at start
                obtain ⟨rfl, rfl⟩ := List.cons.inj start
                exact .head (.plain inWord first text opened)
                  (hypothesis _ (Nat.lt_succ_self _) later rfl)

/-- What the inspector reports: a keyword outside the literals and comments of the
clause with its double quotes taken as ordinary characters. -/
theorem containsDependencyKeyword_iff (clause : String) :
    containsDependencyKeyword clause = true ↔ keywordOutsideUnquoted clause := by
  simp only [containsDependencyKeyword, sanitizeClause, keywordOutsideUnquoted,
    String.toList_ofList, Bool.and_eq_true, Bool.not_eq_true']
  constructor
  · rintro ⟨-, matched⟩
    exact finds_of_matchesKeyword matched
  · intro finds
    have matched := matchesKeyword_of_finds finds
    exact ⟨not_isBlank_of_matchesKeyword matched, matched⟩

end Keywords

theorem Reader.reaches_plain {identifiers : Bool} {chars : List Char}
    (ordinary : ∀ char ∈ chars, char ∉ ['\x27', '"', '-', '/']) (inWord : Bool)
    (rest : List Char) :
    Reader.Reaches identifiers ⟨inWord, chars ++ rest⟩
      ⟨(chars.getLast?.map isWordChar).getD inWord, rest⟩ := by
  induction chars generalizing inWord with
  | nil => exact .refl
  | cons char chars hypothesis =>
      rw [List.forall_mem_cons] at ordinary
      have plain : opens identifiers (char :: (chars ++ rest)) = false := by
        unfold opens
        split
        case h_5 => rfl
        all_goals
          rename_i start
          obtain ⟨rfl, -⟩ := List.cons.inj start
          exact absurd ordinary.1 (by decide)
      refine .head (.plain inWord char (chars ++ rest) plain) ?_
      have later := hypothesis ordinary.2 (isWordChar char)
      rw [List.getLast?_cons]
      cases last : chars.getLast? with
      | none =>
          rw [last] at later
          exact later
      | some final =>
          rw [last] at later
          exact later

theorem opens_cons_cons (char next : Char) (rest other : List Char) :
    opens false (char :: next :: rest) = opens false (char :: next :: other) := by
  unfold opens
  split <;> simp_all

theorem opens_sanitizeFrom {char : Char} {rest : List Char}
    (ordinary : opens false (char :: rest) = false) :
    opens false (char :: sanitizeFrom .plain rest) = false := by
  cases opened : opens false rest with
  | true =>
      obtain ⟨sanitized, equal⟩ := sanitizeFrom_opens opened
      rw [equal]
      unfold opens at ordinary ⊢
      split <;> simp_all
  | false =>
      cases rest with
      | nil => exact ordinary
      | cons next rest =>
          rw [sanitizeFrom_plain opened, opens_cons_cons char next _ rest]
          exact ordinary

theorem sanitizeFrom_space (text : List Char) :
    sanitizeFrom .plain (' ' :: text) = ' ' :: sanitizeFrom .plain text :=
  sanitizeFrom_plain rfl

theorem sanitizeFrom_sanitizeFrom (mode : SanitizeMode) (text : List Char) :
    sanitizeFrom .plain (sanitizeFrom mode text) = sanitizeFrom mode text := by
  fun_induction sanitizeFrom mode text with
  | case1 => rfl
  | case2 rest hypothesis => rw [sanitizeFrom_space, hypothesis]
  | case3 _ _ _ hypothesis => exact hypothesis
  | case4 rest hypothesis => rw [sanitizeFrom_space, hypothesis]
  | case5 _ _ _ hypothesis => exact hypothesis
  | case6 rest hypothesis => exact hypothesis
  | case7 rest _ hypothesis => rw [sanitizeFrom_space, hypothesis]
  | case8 _ _ _ _ hypothesis => exact hypothesis
  | case9 rest hypothesis => rw [sanitizeFrom_space, hypothesis]
  | case10 rest hypothesis => rw [sanitizeFrom_space, hypothesis]
  | case11 rest hypothesis => rw [sanitizeFrom_space, hypothesis]
  | case12 char rest quote line block hypothesis =>
      have ordinary : opens false (char :: rest) = false := by
        unfold opens
        split <;> simp_all
      rw [sanitizeFrom_plain (opens_sanitizeFrom ordinary), hypothesis]

theorem sanitizeClause_sanitizeClause (clause : String) :
    sanitizeClause (sanitizeClause clause) = sanitizeClause clause := by
  rw [sanitizeClause, sanitizeClause, String.toList_ofList, sanitizeFrom_sanitizeFrom]

theorem containsDependencyKeyword_sanitizeClause (clause : String) :
    containsDependencyKeyword (sanitizeClause clause) = containsDependencyKeyword clause := by
  rw [containsDependencyKeyword, sanitizeClause_sanitizeClause, containsDependencyKeyword]

end PostgresSync.SqlInspect
