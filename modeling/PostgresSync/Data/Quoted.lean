import Mathlib

namespace PostgresSync.Data

/-! Texts joined by a separator, and what the joined text still tells of them. -/

section Joined

variable {α : Type u} (separator : α)

variable {separator} in
theorem intercalate_cons {value : List α} {rest : List (List α)} (more : rest ≠ []) :
    [separator].intercalate (value :: rest) =
      value ++ separator :: [separator].intercalate rest := by
  cases rest with
  | nil => exact absurd rfl more
  | cons next rest =>
      rw [List.intercalate_cons_cons, List.append_assoc]
      rfl

theorem intercalate_append_head (front value : List α) (rest : List (List α)) :
    [separator].intercalate ((front ++ value) :: rest) =
      front ++ [separator].intercalate (value :: rest) := by
  cases rest with
  | nil => simp
  | cons next rest =>
      rw [intercalate_cons (List.cons_ne_nil _ _), intercalate_cons (List.cons_ne_nil _ _),
        List.append_assoc]

theorem length_intercalate (values : List (List α)) :
    ([separator].intercalate values).length =
      (values.map List.length).sum + (values.length - 1) := by
  induction values with
  | nil => rfl
  | cons value rest hypothesis =>
      cases rest with
      | nil => simp
      | cons next rest =>
          rw [intercalate_cons (List.cons_ne_nil _ _), List.length_append, List.length_cons,
            hypothesis]
          simp only [List.map_cons, List.sum_cons, List.length_cons]
          omega

variable {separator} in
theorem mem_intercalate {item : α} (other : item ≠ separator) (lists : List (List α)) :
    item ∈ [separator].intercalate lists ↔ ∃ list ∈ lists, item ∈ list := by
  induction lists with
  | nil => simp
  | cons list rest hypothesis =>
      cases rest with
      | nil => simp
      | cons next rest =>
          rw [intercalate_cons (List.cons_ne_nil _ _), List.mem_append, List.mem_cons, hypothesis]
          simp [other]

variable [DecidableEq α]

theorem length_le_count_intercalate (values : List (List α)) :
    values.length ≤ ([separator].intercalate values).count separator + 1 := by
  induction values with
  | nil => simp
  | cons value rest hypothesis =>
      by_cases more : rest = []
      · simp [more]
      · rw [intercalate_cons more, List.count_append, List.count_cons_self, List.length_cons]
        omega

variable {separator}

theorem count_intercalate {values : List (List α)}
    (clean : ∀ value ∈ values, separator ∉ value) :
    ([separator].intercalate values).count separator = values.length - 1 := by
  induction values with
  | nil => simp
  | cons value rest hypothesis =>
      have own : value.count separator = 0 :=
        List.count_eq_zero.mpr (clean value List.mem_cons_self)
      by_cases more : rest = []
      · subst more
        simpa using own
      · have later := hypothesis fun other member =>
          clean other (List.mem_cons_of_mem value member)
        have some : 0 < rest.length := List.length_pos_of_ne_nil more
        rw [intercalate_cons more, List.count_append, List.count_cons_self, own, later,
          List.length_cons]
        omega

theorem intercalate_inj {left right : List (List α)}
    (clean : ∀ value ∈ left, separator ∉ value) (same : left.length = right.length)
    (equal : [separator].intercalate left = [separator].intercalate right) :
    left = right := by
  induction left generalizing right with
  | nil => exact (List.length_eq_zero_iff.mp same.symm).symm
  | cons value rest hypothesis =>
      cases right with
      | nil => cases same
      | cons other others =>
          have lengths : rest.length = others.length := by simpa using same
          have later : ∀ value ∈ rest, separator ∉ value := fun next member =>
            clean next (List.mem_cons_of_mem value member)
          by_cases last : rest = []
          · have alone : others = [] := List.length_eq_zero_iff.mp (by simp [← lengths, last])
            subst last alone
            simpa using equal
          · have more : others ≠ [] := fun none => last (by simpa [none] using lengths)
            rw [intercalate_cons last, intercalate_cons more] at equal
            rcases List.append_eq_append_iff.mp equal with
              ⟨middle, longer, tail⟩ | ⟨middle, longer, tail⟩
            · cases middle with
              | nil =>
                  rw [List.append_nil] at longer
                  rw [longer, hypothesis later lengths (List.cons.inj tail).2]
              | cons head middle =>
                  -- the separator inside the longer text is one too many
                  have rest_eq : [separator].intercalate rest =
                      middle ++ separator :: [separator].intercalate others :=
                    (List.cons.inj tail).2
                  have counted := congrArg (List.count separator) rest_eq
                  have least := length_le_count_intercalate separator others
                  rw [count_intercalate later, List.count_append, List.count_cons_self]
                    at counted
                  omega
            · cases middle with
              | nil =>
                  rw [List.append_nil] at longer
                  rw [longer, hypothesis later lengths (List.cons.inj tail).2.symm]
              | cons head middle =>
                  refine absurd ?_ (clean value List.mem_cons_self)
                  rw [longer, ← (List.cons.inj tail).1]
                  simp

theorem exists_intercalate_eq {values : List (List α)} (several : 2 ≤ values.length)
    (present : ∃ value ∈ values, separator ∈ value) :
    ∃ others : List (List α), others.length = values.length ∧ others ≠ values ∧
      [separator].intercalate others = [separator].intercalate values := by
  induction values with
  | nil => cases several
  | cons value rest hypothesis =>
      cases rest with
      | nil => simp at several
      | cons next rest =>
          by_cases here : separator ∈ value
          · obtain ⟨front, back, rfl⟩ := List.append_of_mem here
            refine ⟨front :: (back ++ separator :: next) :: rest, rfl, ?_, ?_⟩
            · intro equal
              have lengths := congrArg List.length (List.cons.inj equal).1
              simp at lengths
            · rw [intercalate_cons (List.cons_ne_nil _ _),
                intercalate_cons (List.cons_ne_nil _ _), intercalate_append_head]
              have moved := intercalate_append_head separator [separator] next rest
              rw [List.singleton_append] at moved
              rw [moved]
              simp
          · have later : ∃ value ∈ next :: rest, separator ∈ value := by
              obtain ⟨other, member, inside⟩ := present
              rcases List.mem_cons.mp member with rfl | member
              · exact absurd inside here
              · exact ⟨other, member, inside⟩
            cases rest with
            | nil =>
                have inside : separator ∈ next := by simpa using later
                obtain ⟨front, back, rfl⟩ := List.append_of_mem inside
                refine ⟨[value ++ separator :: front, back], rfl, ?_, ?_⟩
                · intro equal
                  have lengths := congrArg List.length (List.cons.inj equal).1
                  simp at lengths
                · simp
            | cons third rest =>
                obtain ⟨others, lengths, different, same⟩ := hypothesis (by simp) later
                have more : others ≠ [] := by
                  rintro rfl
                  cases lengths
                refine ⟨value :: others, by simp [lengths], ?_, ?_⟩
                · intro equal
                  exact different (List.cons.inj equal).2
                · rw [intercalate_cons more, intercalate_cons (List.cons_ne_nil _ _), same]

end Joined

/-! Texts between quotes, in which a quote is marked by a second character. -/

section Quoted

def replaceQuotes (replacement : List Char) (text : List Char) : List Char :=
  text.flatMap fun char => if char = '"' then replacement else [char]

@[simp] theorem replaceQuotes_nil (replacement : List Char) :
    replaceQuotes replacement [] = [] :=
  rfl

@[simp] theorem replaceQuotes_cons (replacement : List Char) (char : Char) (text : List Char) :
    replaceQuotes replacement (char :: text) =
      (if char = '"' then replacement else [char]) ++ replaceQuotes replacement text :=
  rfl

theorem doubled_inj {left right after next : List Char}
    (closed : after.head? ≠ some '"') (ended : next.head? ≠ some '"')
    (same : replaceQuotes ['"', '"'] left ++ '"' :: after =
      replaceQuotes ['"', '"'] right ++ '"' :: next) : left = right ∧ after = next := by
  induction left generalizing right with
  | nil =>
      cases right with
      | nil => exact ⟨rfl, (List.cons.inj same).2⟩
      | cons char right =>
          rw [replaceQuotes_cons] at same
          split at same
          · have tail := (List.cons.inj same).2
            rw [tail] at closed
            simp at closed
          · next other => exact absurd (List.cons.inj same).1.symm other
  | cons char left hypothesis =>
      cases right with
      | nil =>
          rw [replaceQuotes_cons] at same
          split at same
          · have tail := (List.cons.inj same).2
            rw [← tail] at ended
            simp at ended
          · next other => exact absurd (List.cons.inj same).1 other
      | cons other right =>
          rw [replaceQuotes_cons, replaceQuotes_cons] at same
          by_cases quote : char = '"'
          · subst quote
            by_cases also : other = '"'
            · subst also
              have tail := (List.cons.inj (List.cons.inj same).2).2
              obtain ⟨rfl, rest⟩ := hypothesis tail
              exact ⟨rfl, rest⟩
            · rw [if_neg also] at same
              exact absurd (List.cons.inj same).1.symm also
          · by_cases also : other = '"'
            · subst also
              rw [if_neg quote] at same
              exact absurd (List.cons.inj same).1 quote
            · rw [if_neg quote, if_neg also] at same
              obtain ⟨rfl, tail⟩ := List.cons.inj same
              obtain ⟨rfl, rest⟩ := hypothesis tail
              exact ⟨rfl, rest⟩

/-! With a backslash before the quotes and none before the backslashes, a text may end in
what reads as a quote of its own.  The joined texts still tell them all. -/

def escapeQuotes (text : List Char) : List Char :=
  replaceQuotes ['\\', '"'] text

theorem escapeQuotes_head {text rest : List Char} {char : Char}
    (starts : escapeQuotes text = char :: rest) : char ≠ '"' := by
  cases text with
  | nil => cases starts
  | cons first text =>
      rw [escapeQuotes, replaceQuotes_cons] at starts
      split at starts
      · rw [← (List.cons.inj starts).1]
        decide
      · next other =>
          rw [← (List.cons.inj starts).1]
          exact other

theorem escapeQuotes_injective : Function.Injective escapeQuotes := by
  intro left
  induction left with
  | nil =>
      intro right same
      cases right with
      | nil => rfl
      | cons char right =>
          rw [escapeQuotes, escapeQuotes, replaceQuotes_cons] at same
          split at same <;> cases same
  | cons char left hypothesis =>
      intro right same
      cases right with
      | nil =>
          rw [escapeQuotes, escapeQuotes, replaceQuotes_cons] at same
          split at same <;> cases same
      | cons other right =>
          rw [escapeQuotes, escapeQuotes, replaceQuotes_cons, replaceQuotes_cons] at same
          by_cases quote : char = '"'
          · rw [if_pos quote] at same
            by_cases also : other = '"'
            · rw [if_pos also] at same
              rw [quote, also, hypothesis (List.cons.inj (List.cons.inj same).2).2]
            · rw [if_neg also] at same
              -- what follows a lone backslash does not begin with a quote
              exact absurd rfl (escapeQuotes_head (List.cons.inj same).2.symm)
          · rw [if_neg quote] at same
            by_cases also : other = '"'
            · rw [if_pos also] at same
              exact absurd rfl (escapeQuotes_head (List.cons.inj same).2)
            · rw [if_neg also] at same
              rw [(List.cons.inj same).1, hypothesis (List.cons.inj same).2]

theorem escapeQuotes_slash_quote (text front back : List Char) :
    escapeQuotes text ≠ front ++ '/' :: '"' :: back := by
  induction text generalizing front with
  | nil => simp [escapeQuotes]
  | cons char text hypothesis =>
      intro same
      rw [escapeQuotes, replaceQuotes_cons] at same
      cases front with
      | nil =>
          split at same
          · cases (List.cons.inj same).1
          · exact absurd rfl (escapeQuotes_head (List.cons.inj same).2)
      | cons first front =>
          split at same
          · cases front with
            | nil => cases (List.cons.inj (List.cons.inj same).2).1
            | cons second front =>
                exact hypothesis front (List.cons.inj (List.cons.inj same).2).2
          · exact hypothesis front (List.cons.inj same).2

/-- The texts after the first opening quote: each is closed by a quote, and a slash and a
quote open the next. -/
def quotedRest : List (List Char) → List Char
  | [] => []
  | [text] => escapeQuotes text ++ ['"']
  | text :: next :: rest => escapeQuotes text ++ '"' :: '/' :: '"' :: quotedRest (next :: rest)

def afterQuote : List (List Char) → List Char
  | [] => []
  | next :: rest => '/' :: '"' :: quotedRest (next :: rest)

theorem quotedRest_cons (text : List Char) (rest : List (List Char)) :
    quotedRest (text :: rest) = escapeQuotes text ++ '"' :: afterQuote rest := by
  cases rest <;> rfl

theorem quotedRest_ne_nil {texts : List (List Char)} (some : texts ≠ []) :
    quotedRest texts ≠ [] := by
  cases texts with
  | nil => exact absurd rfl some
  | cons text rest =>
      rw [quotedRest_cons]
      simp

/-- Two readings of one text cannot be a slash and a quote apart: each would have to read
nothing but slashes, and neither could come to an end. -/
theorem quotedRest_ne_afterQuote (left right : List (List Char)) (some : left ≠ []) :
    quotedRest left ≠ afterQuote right := by
  induction size : left.length + right.length using Nat.strong_induction_on
    generalizing left right with
  | _ n hypothesis =>
      intro same
      cases right with
      | nil => exact quotedRest_ne_nil some same
      | cons next right =>
          cases left with
          | nil => exact some rfl
          | cons text left =>
              rw [quotedRest_cons, afterQuote] at same
              cases text with
              | nil => cases (List.cons.inj same).1
              | cons char text =>
                  rw [escapeQuotes, replaceQuotes_cons] at same
                  split at same
                  · cases (List.cons.inj same).1
                  · have tail : escapeQuotes text ++ '"' :: afterQuote left =
                        '"' :: quotedRest (next :: right) := (List.cons.inj same).2
                    cases shown : escapeQuotes text with
                    | nil =>
                        rw [shown] at tail
                        have swapped := (List.cons.inj tail).2.symm
                        subst size
                        exact hypothesis _ (by simp; omega) (next :: right) left (by simp) rfl
                          swapped
                    | cons first rest =>
                        rw [shown] at tail
                        exact escapeQuotes_head shown (List.cons.inj tail).1

theorem quotedRest_overlap {text other : List Char} {left right : List (List Char)}
    {middle : List Char} (longer : escapeQuotes other = escapeQuotes text ++ middle)
    (tail : '"' :: afterQuote left = middle ++ '"' :: afterQuote right) :
    middle = [] := by
  cases middle with
  | nil => rfl
  | cons head middle =>
      exfalso
      obtain ⟨rfl, opened⟩ := List.cons.inj tail
      cases left with
      | nil => simp [afterQuote] at opened
      | cons next left =>
          cases middle with
          | nil => cases (List.cons.inj opened).1
          | cons slash middle =>
              obtain ⟨rfl, reopened⟩ := List.cons.inj opened
              cases middle with
              | nil =>
                  exact quotedRest_ne_afterQuote (next :: left) right (by simp)
                    (List.cons.inj reopened).2
              | cons quote middle =>
                  obtain ⟨rfl, -⟩ := List.cons.inj reopened
                  apply escapeQuotes_slash_quote other (escapeQuotes text ++ ['"']) middle
                  rw [longer]
                  simp

theorem quotedRest_inj {left right : List (List Char)}
    (same : quotedRest left = quotedRest right) : left = right := by
  induction left generalizing right with
  | nil =>
      by_contra different
      exact quotedRest_ne_nil (Ne.symm different) same.symm
  | cons text left hypothesis =>
      cases right with
      | nil => exact absurd same (quotedRest_ne_nil (by simp))
      | cons other right =>
          rw [quotedRest_cons, quotedRest_cons] at same
          have equal : text = other ∧ afterQuote left = afterQuote right := by
            rcases List.append_eq_append_iff.mp same with
              ⟨middle, longer, tail⟩ | ⟨middle, longer, tail⟩
            · obtain rfl := quotedRest_overlap longer tail
              rw [List.append_nil] at longer
              exact ⟨(escapeQuotes_injective longer).symm, (List.cons.inj tail).2⟩
            · obtain rfl := quotedRest_overlap longer tail
              rw [List.append_nil] at longer
              exact ⟨escapeQuotes_injective longer, (List.cons.inj tail).2.symm⟩
          obtain ⟨rfl, tail⟩ := equal
          cases left with
          | nil =>
              cases right with
              | nil => rfl
              | cons next right => cases tail
          | cons next left =>
              cases right with
              | nil => cases tail
              | cons second right =>
                  rw [hypothesis (List.cons.inj (List.cons.inj tail).2).2]

end Quoted

end PostgresSync.Data
