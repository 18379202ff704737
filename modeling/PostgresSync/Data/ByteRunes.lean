import Mathlib

namespace PostgresSync.Data

/-! Text whose UTF-8 bytes are each read as a character of their own. -/

def byteRune (byte : UInt8) : Char := Char.ofNat byte.toNat

def byteRunes (char : Char) : List Char := (String.utf8EncodeChar char).map byteRune

def readByBytes (text : List Char) : List Char := text.flatMap byteRunes

@[simp] theorem readByBytes_nil : readByBytes [] = [] := rfl

@[simp] theorem readByBytes_cons (char : Char) (text : List Char) :
    readByBytes (char :: text) = byteRunes char ++ readByBytes text := rfl

@[simp] theorem readByBytes_append (left right : List Char) :
    readByBytes (left ++ right) = readByBytes left ++ readByBytes right :=
  List.flatMap_append

section Characters

variable {char : Char}

@[simp] theorem toNat_byteRune (byte : UInt8) : (byteRune byte).toNat = byte.toNat := by
  have small := byte.toNat_lt
  rw [byteRune, Char.toNat_ofNat, if_pos]
  exact .inl (by omega)

theorem byteRunes_ascii (ascii : char.toNat < 128) : byteRunes char = [char] := by
  have small : char.val.toNat ≤ 127 := Nat.le_of_lt_succ ascii
  have same : (UInt8.ofNat char.val.toNat).toNat = char.toNat := by
    rw [UInt8.toNat_ofNat']
    exact Nat.mod_eq_of_lt (by omega)
  have encoded : String.utf8EncodeChar char = [UInt8.ofNat char.val.toNat] :=
    if_pos small
  rw [byteRunes, encoded, List.map_singleton, byteRune, same, Char.ofNat_toNat]

theorem byteRunes_beyond (beyond : 128 ≤ char.toNat) :
    ∃ lead rest, byteRunes char = lead :: rest ∧ rest ≠ [] ∧ 192 ≤ lead.toNat ∧
      ∀ rune ∈ lead :: rest, 128 ≤ rune.toNat ∧ rune.toNat < 256 := by
  have large : ¬ char.val.toNat ≤ 127 := Nat.not_le_of_lt beyond
  have encoded : ∃ lead rest, String.utf8EncodeChar char = lead :: rest ∧ rest ≠ [] ∧
      192 ≤ lead.toNat ∧ ∀ byte ∈ lead :: rest, 128 ≤ byte.toNat := by
    unfold String.utf8EncodeChar
    dsimp only
    rw [if_neg large]
    split_ifs <;> refine ⟨_, _, rfl, by simp, ?_, ?_⟩ <;>
      simp only [List.mem_cons, List.not_mem_nil, or_false, forall_eq_or_imp, forall_eq,
        UInt8.toNat_ofNat'] <;> omega
  obtain ⟨lead, rest, bytes, more, first, all⟩ := encoded
  refine ⟨byteRune lead, rest.map byteRune, by rw [byteRunes, bytes, List.map_cons], ?_, ?_, ?_⟩
  · simpa using more
  · rw [toNat_byteRune]
    exact first
  · intro rune member
    rw [← List.map_cons] at member
    obtain ⟨byte, known, rfl⟩ := List.mem_map.mp member
    rw [toNat_byteRune]
    exact ⟨all byte known, byte.toNat_lt⟩

theorem byteRunes_latin1 (beyond : 128 ≤ char.toNat) (small : char.toNat < 256) :
    ∃ lead last, byteRunes char = [lead, last] ∧ 192 ≤ lead.toNat ∧
      (lead = char → last = Char.ofNat 0x83) := by
  have value : char.val.toNat = char.toNat := rfl
  have encoded : String.utf8EncodeChar char =
      [UInt8.ofNat (char.toNat / 64 % 32 + 192), UInt8.ofNat (char.toNat % 64 + 128)] := by
    unfold String.utf8EncodeChar
    dsimp only
    rw [if_neg (by omega), if_pos (by omega), value]
  refine ⟨_, _, congrArg (List.map byteRune) encoded, ?_, fun same => ?_⟩
  · rw [toNat_byteRune, UInt8.toNat_ofNat']
    omega
  · have equal := congrArg Char.toNat same
    rw [toNat_byteRune, UInt8.toNat_ofNat'] at equal
    rw [byteRune, UInt8.toNat_ofNat']
    congr 1
    have high : char.toNat / 64 = 2 ∨ char.toNat / 64 = 3 := by omega
    rcases high with quotient | quotient <;> rw [quotient] at equal <;> omega

theorem mem_byteRunes_lt {rune : Char} (member : rune ∈ byteRunes char) : rune.toNat < 256 := by
  rcases Nat.lt_or_ge char.toNat 128 with ascii | beyond
  · rw [byteRunes_ascii ascii, List.mem_singleton] at member
    rw [member]
    omega
  · obtain ⟨lead, rest, runes, -, -, all⟩ := byteRunes_beyond beyond
    rw [runes] at member
    exact (all rune member).2

theorem mem_byteRunes_ascii {rune : Char} (member : rune ∈ byteRunes char)
    (ascii : rune.toNat < 128) : rune = char := by
  rcases Nat.lt_or_ge char.toNat 128 with small | beyond
  · rw [byteRunes_ascii small, List.mem_singleton] at member
    exact member
  · obtain ⟨lead, rest, runes, -, -, all⟩ := byteRunes_beyond beyond
    rw [runes] at member
    exact absurd ascii (all rune member).1.not_gt

end Characters

section Texts

variable {text : List Char}

theorem mem_readByBytes_lt {rune : Char} (member : rune ∈ readByBytes text) :
    rune.toNat < 256 := by
  obtain ⟨char, -, inside⟩ := List.mem_flatMap.mp member
  exact mem_byteRunes_lt inside

theorem readByBytes_ascii (ascii : ∀ char ∈ text, char.toNat < 128) :
    readByBytes text = text := by
  induction text with
  | nil => rfl
  | cons char rest hypothesis =>
      rw [readByBytes_cons, byteRunes_ascii (ascii char List.mem_cons_self),
        hypothesis fun other member => ascii other (List.mem_cons_of_mem char member)]
      rfl

theorem length_le_readByBytes (text : List Char) : text.length ≤ (readByBytes text).length := by
  induction text with
  | nil => exact le_rfl
  | cons char rest hypothesis =>
      rw [readByBytes_cons, List.length_append, List.length_cons]
      have one : 1 ≤ (byteRunes char).length := by
        rw [byteRunes, List.length_map, String.length_utf8EncodeChar]
        exact char.utf8Size_pos
      omega

theorem ascii_of_length_readByBytes (same : (readByBytes text).length = text.length) :
    ∀ char ∈ text, char.toNat < 128 := by
  induction text with
  | nil => simp
  | cons char rest hypothesis =>
      rw [readByBytes_cons, List.length_append, List.length_cons] at same
      have longer := length_le_readByBytes rest
      rcases Nat.lt_or_ge char.toNat 128 with ascii | beyond
      · rw [byteRunes_ascii ascii, List.length_singleton] at same
        intro other member
        rcases List.mem_cons.mp member with rfl | later
        · exact ascii
        · exact hypothesis (by omega) other later
      · obtain ⟨lead, more, runes, some, -⟩ := byteRunes_beyond beyond
        have pair : 0 < more.length := List.length_pos_of_ne_nil some
        rw [runes, List.length_cons] at same
        omega

end Texts

/-! Trimming. -/

section Trimming

variable {space : Char → Bool} {text : List Char}

def trim (space : Char → Bool) (text : List Char) : List Char :=
  (text.dropWhile space).rdropWhile space

structure Trimmed (space : Char → Bool) (text : List Char) : Prop where
  first : ∀ char ∈ text.head?, space char = false
  last : ∀ char ∈ text.getLast?, space char = false

theorem dropWhile_of_first (first : ∀ char ∈ text.head?, space char = false) :
    text.dropWhile space = text := by
  cases text with
  | nil => rfl
  | cons char rest => rw [List.dropWhile_cons_of_neg (by simp [first char rfl])]

theorem rdropWhile_append_of_not {char : Char} (dark : space char = false) (front : List Char) :
    (front ++ [char]).rdropWhile space = front ++ [char] :=
  List.rdropWhile_concat_neg _ _ _ (by simp [dark])

theorem Trimmed.trim_eq (trimmed : Trimmed space text) : trim space text = text := by
  rw [trim, dropWhile_of_first trimmed.first]
  rcases List.eq_nil_or_concat text with rfl | ⟨front, char, rfl⟩
  · rfl
  · rw [List.concat_eq_append] at trimmed ⊢
    exact rdropWhile_append_of_not (trimmed.last char (by simp)) front

theorem trimmed_trim (space : Char → Bool) (text : List Char) :
    Trimmed space (trim space text) where
  first char member := by
    have dropped : trim space text <+: text.dropWhile space := List.rdropWhile_prefix _ _
    cases trimmed : trim space text with
    | nil =>
        rw [trimmed] at member
        cases member
    | cons head tail =>
        rw [trimmed] at member dropped
        obtain rfl := Option.some.inj member
        obtain ⟨rest, whole⟩ := dropped
        have kept := List.head?_dropWhile_not space text
        rw [← whole] at kept
        exact kept
  last char member := by
    have some : trim space text ≠ [] := by
      intro empty
      rw [empty] at member
      cases member
    have kept := List.rdropWhile_last_not space (text.dropWhile space) some
    rw [List.getLast?_eq_some_getLast some] at member
    obtain rfl := Option.some.inj member
    exact Bool.eq_false_iff.mpr kept

/-- The first byte of a character is no space, nor is one that may follow it. -/
structure Marks (space : Char → Bool) : Prop where
  lead : ∀ char, 192 ≤ char.toNat → char.toNat < 256 → space char = false
  follower : space (Char.ofNat 0x83) = false

theorem Marks.head_readByBytes (marks : Marks space)
    (first : ∀ char ∈ text.head?, space char = false) :
    ∀ rune ∈ (readByBytes text).head?, space rune = false := by
  cases text with
  | nil => simp
  | cons char rest =>
      intro rune member
      rw [readByBytes_cons] at member
      rcases Nat.lt_or_ge char.toNat 128 with ascii | beyond
      · rw [byteRunes_ascii ascii] at member
        obtain rfl := Option.some.inj member
        exact first char rfl
      · obtain ⟨lead, more, runes, -, large, all⟩ := byteRunes_beyond beyond
        rw [runes] at member
        obtain rfl := Option.some.inj member
        exact marks.lead lead large (all lead List.mem_cons_self).2

/-- What a text that has been read by bytes and trimmed must have been to be itself again.
Trimming cannot make up for the bytes that are too many: it takes at most the last of them,
and leaves the first byte of the last character in its place. -/
theorem Marks.trim_readByBytes_iff (marks : Marks space) (text : List Char) :
    trim space (readByBytes text) = text ↔
      (∀ char ∈ text, char.toNat < 128) ∧ Trimmed space text := by
  constructor
  · intro same
    have trimmed : Trimmed space text := same ▸ trimmed_trim space (readByBytes text)
    refine ⟨?_, trimmed⟩
    rw [trim, dropWhile_of_first (marks.head_readByBytes trimmed.first)] at same
    have untouched : (readByBytes text).rdropWhile space = readByBytes text →
        ∀ char ∈ text, char.toNat < 128 := by
      intro kept
      apply ascii_of_length_readByBytes
      rw [← kept, same]
    rcases List.eq_nil_or_concat text with rfl | ⟨front, last, whole⟩
    · simp
    · rw [List.concat_eq_append] at whole
      subst whole
      have split : readByBytes (front ++ [last]) = readByBytes front ++ byteRunes last := by simp
      rcases Nat.lt_or_ge last.toNat 128 with ascii | beyond
      · apply untouched
        rw [split, byteRunes_ascii ascii]
        exact rdropWhile_append_of_not (trimmed.last last (by simp)) _
      · have small : last.toNat < 256 := by
          apply mem_readByBytes_lt
          apply (List.rdropWhile_prefix space (readByBytes (front ++ [last]))).subset
          rw [same]
          simp
        obtain ⟨lead, final, runes, large, returns⟩ := byteRunes_latin1 beyond small
        have bright : space lead = false := by
          apply marks.lead lead large
          have member : lead ∈ byteRunes last := by simp [runes]
          exact mem_byteRunes_lt member
        have parts : readByBytes (front ++ [last]) = (readByBytes front ++ [lead]) ++ [final] := by
          rw [split, runes, List.append_assoc]
          rfl
        cases blank : space final with
        | false =>
            apply untouched
            rw [parts]
            exact rdropWhile_append_of_not blank _
        | true =>
            rw [parts, List.rdropWhile_concat_pos _ _ _ blank,
              rdropWhile_append_of_not bright] at same
            have again := returns (List.append_inj' same rfl |>.2 |> List.cons.inj).1
            rw [again, marks.follower] at blank
            cases blank
  · intro ⟨ascii, trimmed⟩
    rw [readByBytes_ascii ascii]
    exact trimmed.trim_eq

end Trimming

/-- `unicode.ToLower` as far as its result can be an ASCII letter. -/
def lowerChar (char : Char) : Char :=
  if char = 'K' then 'k' else if char = 'İ' then 'i' else char.toLower

end PostgresSync.Data
