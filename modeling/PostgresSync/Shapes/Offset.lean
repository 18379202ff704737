import PostgresSync.Data.Decimal
import PostgresSync.Shapes.Backend

namespace PostgresSync.Shapes

open PostgresSync.Data

inductive ParsedOffset where
  | sequence (seq : Nat)
  | now
  | lsn (lsn : UInt64) (opPos : Nat)
deriving DecidableEq, Repr

def parseOffsetParts (front back : List Char) : Option ParsedOffset :=
  if front = ['0'] then
    if back = ['i', 'n', 'f'] then
      some .now
    else
      match parseInt64 back with
      | none => none
      | some seq => if seq < 0 then none else some (.sequence seq.toNat)
  else
    match parseUint64 front with
    | none => none
    | some lsn =>
        match parseInt64 back with
        | none => none
        | some opPos => if opPos < 0 then none else some (.lsn lsn opPos.toNat)

def parseOffset (raw : String) : Option ParsedOffset :=
  let raw := if raw = "" then initialOffset else raw
  match cut '_' raw.toList with
  | none => none
  | some (front, back) => parseOffsetParts front back

def offsetRank : ParsedOffset → Nat
  | .sequence _ => 1
  | .now => 2
  | .lsn _ _ => 3

def compareParsedOffsets (left right : ParsedOffset) : Ordering :=
  if offsetRank left ≠ offsetRank right then
    if offsetRank left < offsetRank right then .lt else .gt
  else
    match left, right with
    | .sequence leftSeq, .sequence rightSeq => compare leftSeq rightSeq
    | .lsn leftLSN leftPos, .lsn rightLSN rightPos =>
        if leftLSN ≠ rightLSN then
          if leftLSN < rightLSN then .lt else .gt
        else
          compare leftPos rightPos
    | _, _ => .eq

/-- The source returns -1, 0 or 1 where this returns an `Ordering`. -/
def compareOffsets (left right : String) : Ordering :=
  match parseOffset left, parseOffset right with
  | none, none => .eq
  | none, some _ => .lt
  | some _, none => .gt
  | some left, some right => compareParsedOffsets left right

def formatSequenceOffset (sequence : Int) : String :=
  "0_" ++ toString sequence

def formatLSNOffset (lsn : UInt64) (opPos : Int) : String :=
  toString lsn.toNat ++ "_" ++ toString opPos

/-- Wrap-around of Go's 64-bit `int`. -/
def wrapInt (n : Int) : Int := n.bmod (2 ^ 64)

def nextGeneratedOffset (current : String) (step : Nat) : String :=
  match parseOffset current with
  | none => formatSequenceOffset (wrapInt (step + 1))
  | some (.lsn lsn opPos) => formatLSNOffset lsn (wrapInt (opPos + step + 1))
  | some .now => formatLSNOffset (UInt64.ofNat (step + 1)) 0
  | some (.sequence seq) => formatSequenceOffset (wrapInt (seq + step + 1))

def offsetLSN (offset : String) : Option String :=
  match parseOffset offset with
  | some (.lsn lsn _) => some (toString lsn.toNat)
  | _ => none

namespace ParsedOffset

def sortKey : ParsedOffset → Nat ×ₗ Nat ×ₗ Nat
  | .sequence seq => toLex (1, toLex (seq, 0))
  | .now => toLex (2, toLex (0, 0))
  | .lsn commit opPos => toLex (3, toLex (commit.toNat, opPos))

theorem sortKey_injective : Function.Injective sortKey := by
  intro left right equal
  cases left <;> cases right <;>
    simp_all [sortKey, UInt64.toNat_inj]

instance : LinearOrder ParsedOffset :=
  LinearOrder.lift' sortKey sortKey_injective

theorem lt_iff_sortKey (left right : ParsedOffset) :
    left < right ↔ sortKey left < sortKey right :=
  Iff.rfl

theorem sequence_lt_sequence {left right : Nat} :
    sequence left < sequence right ↔ left < right := by
  simp [lt_iff_sortKey, sortKey, Prod.Lex.toLex_lt_toLex]

theorem lsn_lt_lsn {leftLSN rightLSN : UInt64} {leftPos rightPos : Nat} :
    lsn leftLSN leftPos < lsn rightLSN rightPos ↔
      leftLSN < rightLSN ∨ (leftLSN = rightLSN ∧ leftPos < rightPos) := by
  simp [lt_iff_sortKey, sortKey, Prod.Lex.toLex_lt_toLex, UInt64.lt_iff_toNat_lt,
    UInt64.toNat_inj]

theorem lt_of_offsetRank_lt {left right : ParsedOffset}
    (rank : offsetRank left < offsetRank right) : left < right := by
  rw [lt_iff_sortKey]
  cases left <;> cases right <;>
    simp_all [offsetRank, sortKey, Prod.Lex.toLex_lt_toLex]

end ParsedOffset

theorem compareParsedOffsets_eq_lt (left right : ParsedOffset) :
    compareParsedOffsets left right = .lt ↔ left < right := by
  by_cases rank : offsetRank left = offsetRank right
  · cases left <;> cases right <;> simp_all [compareParsedOffsets, offsetRank]
    · simp [ParsedOffset.sequence_lt_sequence, compare_lt_iff_lt]
    · rename_i leftLSN leftPos rightLSN rightPos
      rw [ParsedOffset.lsn_lt_lsn]
      by_cases equal : leftLSN = rightLSN
      · simp [equal, compare_lt_iff_lt]
      · simp [equal]
  · rcases Nat.lt_or_gt_of_ne rank with below | above
    · simp [compareParsedOffsets, rank, below, ParsedOffset.lt_of_offsetRank_lt below]
    · have reverse := ParsedOffset.lt_of_offsetRank_lt above
      simp [compareParsedOffsets, rank, above.not_gt, reverse.not_gt]

theorem compareParsedOffsets_eq_eq (left right : ParsedOffset) :
    compareParsedOffsets left right = .eq ↔ left = right := by
  cases left with
  | sequence leftSeq => cases right <;> simp [compareParsedOffsets, offsetRank]
  | now => cases right <;> simp [compareParsedOffsets, offsetRank]
  | lsn leftLSN leftPos =>
      cases right with
      | sequence rightSeq => simp [compareParsedOffsets, offsetRank]
      | now => simp [compareParsedOffsets, offsetRank]
      | lsn rightLSN rightPos =>
          by_cases equal : leftLSN = rightLSN
          · simp [compareParsedOffsets, offsetRank, equal]
          · by_cases below : leftLSN < rightLSN <;>
              simp [compareParsedOffsets, offsetRank, equal, below]

theorem compareParsedOffsets_eq_gt (left right : ParsedOffset) :
    compareParsedOffsets left right = .gt ↔ right < left := by
  have less := compareParsedOffsets_eq_lt left right
  have equal := compareParsedOffsets_eq_eq left right
  cases outcome : compareParsedOffsets left right with
  | lt => simpa using (less.mp outcome).not_gt
  | eq => simp [equal.mp outcome]
  | gt =>
      have notLess : ¬ left < right := fun h => by simp [less.mpr h] at outcome
      have notEqual : left ≠ right := fun h => by simp [equal.mpr h] at outcome
      simpa using lt_of_le_of_ne (not_lt.mp notLess) notEqual.symm

/-- Where an offset text stands in the order: every text that does not parse
is at the bottom. -/
def offsetPosition (raw : String) : WithBot ParsedOffset :=
  match parseOffset raw with
  | none => ⊥
  | some parsed => parsed

theorem offsetPosition_of_parse {raw : String} {parsed : ParsedOffset}
    (h : parseOffset raw = some parsed) : offsetPosition raw = parsed := by
  simp [offsetPosition, h]

theorem compareOffsets_eq_gt (left right : String) :
    compareOffsets left right = .gt ↔
      offsetPosition right < offsetPosition left := by
  unfold compareOffsets offsetPosition
  cases parseOffset left <;> cases parseOffset right <;>
    simp [compareParsedOffsets_eq_gt]

theorem compareOffsets_eq_lt (left right : String) :
    compareOffsets left right = .lt ↔
      offsetPosition left < offsetPosition right := by
  unfold compareOffsets offsetPosition
  cases parseOffset left <;> cases parseOffset right <;>
    simp [compareParsedOffsets_eq_lt]

theorem compareOffsets_eq_eq (left right : String) :
    compareOffsets left right = .eq ↔
      offsetPosition left = offsetPosition right := by
  unfold compareOffsets offsetPosition
  cases parseOffset left <;> cases parseOffset right <;>
    simp [compareParsedOffsets_eq_eq]

theorem parseOffset_initialOffset :
    parseOffset initialOffset = some (.sequence 0) := by
  decide

theorem parseOffset_nowOffset : parseOffset nowOffset = some .now := by
  decide

theorem formatLSNOffset_toList (lsn : UInt64) (opPos : Nat) :
    (formatLSNOffset lsn opPos).toList =
      Nat.toDigits 10 lsn.toNat ++ '_' :: Nat.toDigits 10 opPos := by
  have position : toString (opPos : Int) = toString opPos := rfl
  simp [formatLSNOffset, position]

theorem formatSequenceOffset_toList (sequence : Nat) :
    (formatSequenceOffset sequence).toList =
      ['0'] ++ '_' :: Nat.toDigits 10 sequence := by
  have digits : toString (sequence : Int) = toString sequence := rfl
  simp [formatSequenceOffset, digits]

theorem toDigits_ne_inf (n : Nat) : Nat.toDigits 10 n ≠ ['i', 'n', 'f'] := by
  intro equal
  have digits := toDigits_all_isDigit n
  rw [equal] at digits
  simp at digits

theorem toDigits_ne_zero {lsn : UInt64} (positive : 0 < lsn) :
    Nat.toDigits 10 lsn.toNat ≠ ['0'] := by
  intro equal
  have value := congrArg (fun text => Nat.ofDigitChars 10 text 0) equal
  simp only [Nat.ofDigitChars_ten_toDigits] at value
  have zero : lsn = 0 := UInt64.toNat_inj.mp value
  simp [zero] at positive

theorem parseOffset_formatLSNOffset {lsn : UInt64} (positive : 0 < lsn)
    {opPos : Nat} (bound : opPos < 2 ^ 63) :
    parseOffset (formatLSNOffset lsn opPos) = some (.lsn lsn opPos) := by
  have text := formatLSNOffset_toList lsn opPos
  have nonempty : formatLSNOffset lsn opPos ≠ "" := by
    intro empty
    simp [empty] at text
  simp [parseOffset, nonempty, text, cut_append, parseOffsetParts,
    toDigits_ne_zero positive, parseUint64_toDigits, parseInt64_toDigits bound]

theorem parseOffset_formatSequenceOffset {sequence : Nat}
    (bound : sequence < 2 ^ 63) :
    parseOffset (formatSequenceOffset sequence) = some (.sequence sequence) := by
  have text := formatSequenceOffset_toList sequence
  have nonempty : formatSequenceOffset sequence ≠ "" := by
    intro empty
    simp [empty] at text
  have separated : cut '_' (formatSequenceOffset sequence).toList =
      some (['0'], Nat.toDigits 10 sequence) := by
    rw [text]
    exact cut_append (by decide) _
  simp [parseOffset, nonempty, separated, parseOffsetParts, toDigits_ne_inf,
    parseInt64_toDigits bound]

end PostgresSync.Shapes
