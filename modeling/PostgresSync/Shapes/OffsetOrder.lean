import PostgresSync.Shapes.LogOrder

namespace PostgresSync.Shapes

/-! The order of offset texts. -/

/-- Sequence offsets by number, then `now`, then commits by number and position. -/
inductive ParsedOffset.Precedes : ParsedOffset → ParsedOffset → Prop
  | sequence {left right : Nat} (below : left < right) :
      Precedes (.sequence left) (.sequence right)
  | sequence_now {seq : Nat} : Precedes (.sequence seq) .now
  | sequence_lsn {seq opPos : Nat} {lsn : UInt64} : Precedes (.sequence seq) (.lsn lsn opPos)
  | now_lsn {lsn : UInt64} {opPos : Nat} : Precedes .now (.lsn lsn opPos)
  | lsn {left right : UInt64} {leftPos rightPos : Nat} (below : left < right) :
      Precedes (.lsn left leftPos) (.lsn right rightPos)
  | opPos {lsn : UInt64} {left right : Nat} (below : left < right) :
      Precedes (.lsn lsn left) (.lsn lsn right)

theorem ParsedOffset.precedes_iff {left right : ParsedOffset} :
    left.Precedes right ↔ left < right := by
  constructor
  · intro precedes
    cases precedes with
    | sequence below => exact sequence_lt_sequence.mpr below
    | sequence_now => exact lt_of_offsetRank_lt (by simp [offsetRank])
    | sequence_lsn => exact lt_of_offsetRank_lt (by simp [offsetRank])
    | now_lsn => exact lt_of_offsetRank_lt (by simp [offsetRank])
    | lsn below => exact lsn_lt_lsn.mpr (.inl below)
    | opPos below => exact lsn_lt_lsn.mpr (.inr ⟨rfl, below⟩)
  · intro below
    cases left with
    | sequence seq =>
        cases right with
        | sequence other => exact .sequence (sequence_lt_sequence.mp below)
        | now => exact .sequence_now
        | lsn lsn opPos => exact .sequence_lsn
    | now =>
        cases right with
        | sequence other => exact absurd below (lt_of_offsetRank_lt (by simp [offsetRank])).not_gt
        | now => exact absurd below (lt_irrefl _)
        | lsn lsn opPos => exact .now_lsn
    | lsn lsn opPos =>
        cases right with
        | sequence other => exact absurd below (lt_of_offsetRank_lt (by simp [offsetRank])).not_gt
        | now => exact absurd below (lt_of_offsetRank_lt (by simp [offsetRank])).not_gt
        | lsn other otherPos =>
            rcases lsn_lt_lsn.mp below with earlier | ⟨rfl, before⟩
            · exact .lsn earlier
            · exact .opPos before

theorem compareOffsets_swap (left right : String) :
    compareOffsets left right = (compareOffsets right left).swap := by
  cases compared : compareOffsets right left with
  | lt =>
      apply (compareOffsets_eq_gt left right).mpr
      exact (compareOffsets_eq_lt right left).mp compared
  | gt =>
      apply (compareOffsets_eq_lt left right).mpr
      exact (compareOffsets_eq_gt right left).mp compared
  | eq =>
      apply (compareOffsets_eq_eq left right).mpr
      exact ((compareOffsets_eq_eq right left).mp compared).symm

theorem compareOffsets_isLE (left right : String) :
    (compareOffsets left right).isLE = true ↔ offsetPosition left ≤ offsetPosition right := by
  rw [← not_lt, ← compareOffsets_eq_gt]
  cases compareOffsets left right <;> simp

instance compareOffsets_transCmp : Std.TransCmp compareOffsets where
  eq_swap {left right} := compareOffsets_swap left right
  isLE_trans {first second third} := by
    rw [compareOffsets_isLE, compareOffsets_isLE, compareOffsets_isLE]
    exact le_trans

theorem nextGeneratedOffset_lt {current : String} {position : ParsedOffset}
    (parsed : parseOffset current = some position) (regular : position.Regular)
    {step later : Nat} (below : step < later)
    (bound : position.ordinal + later + 1 < 2 ^ 63) :
    compareOffsets current (nextGeneratedOffset current step) = .lt ∧
      compareOffsets (nextGeneratedOffset current step) (nextGeneratedOffset current later) =
        .lt := by
  have first := offsetPosition_of_parse
    (parseOffset_nextGeneratedOffset parsed regular (show position.ordinal + step + 1 < 2 ^ 63 by
      omega))
  have second := offsetPosition_of_parse (parseOffset_nextGeneratedOffset parsed regular bound)
  rw [compareOffsets_eq_lt, compareOffsets_eq_lt, first, second, offsetPosition_of_parse parsed,
    WithBot.coe_lt_coe, WithBot.coe_lt_coe]
  exact ⟨position.lt_next step, position.next_lt_next below (by omega)⟩

/-- The comparison is a total preorder of all texts: those that do not parse are alike and come
first, and the others are in the order of what they parse to.  What is formatted parses back,
and generated offsets grow. -/
theorem offsets_ordered :
    Std.TransCmp compareOffsets ∧
      (∀ left right, parseOffset left = none →
        (parseOffset right = none → compareOffsets left right = .eq) ∧
          ∀ position, parseOffset right = some position → compareOffsets left right = .lt) ∧
      (∀ left right first second, parseOffset left = some first →
        parseOffset right = some second →
          (compareOffsets left right = .lt ↔ first.Precedes second) ∧
            (compareOffsets left right = .eq ↔ first = second)) ∧
      (∀ (lsn : UInt64) (opPos : Nat), 1 ≤ lsn → opPos < 2 ^ 63 →
        parseOffset (formatLSNOffset lsn opPos) = some (.lsn lsn opPos)) ∧
      (∀ sequence : Nat, sequence < 2 ^ 63 →
        parseOffset (formatSequenceOffset sequence) = some (.sequence sequence)) ∧
      ∀ current position, parseOffset current = some position → position.Regular →
        ∀ step later, step < later → position.ordinal + later + 1 < 2 ^ 63 →
          compareOffsets current (nextGeneratedOffset current step) = .lt ∧
            compareOffsets (nextGeneratedOffset current step)
              (nextGeneratedOffset current later) = .lt := by
  refine ⟨inferInstance, ?_, ?_, ?_, ?_, ?_⟩
  · intro left right invalid
    refine ⟨fun alike => ?_, fun position parsed => ?_⟩
    · simp [compareOffsets, invalid, alike]
    · simp [compareOffsets, invalid, parsed]
  · intro left right first second parsed found
    rw [compareOffsets_eq_lt, compareOffsets_eq_eq, offsetPosition_of_parse parsed,
      offsetPosition_of_parse found, WithBot.coe_lt_coe, WithBot.coe_inj,
      ParsedOffset.precedes_iff]
    exact ⟨Iff.rfl, Iff.rfl⟩
  · intro lsn opPos positive bound
    apply parseOffset_formatLSNOffset _ bound
    exact UInt64.lt_of_lt_of_le (by decide) positive
  · intro sequence bound
    exact parseOffset_formatSequenceOffset bound
  · intro current position parsed regular step later below bound
    exact nextGeneratedOffset_lt parsed regular below bound

theorem offsets_ordered_kinds :
    compareOffsets "junk" "0_7" = .lt ∧ compareOffsets "0_7" "0_inf" = .lt ∧
      compareOffsets "0_inf" "0_inf" = .eq ∧
      (parseOffset (formatLSNOffset 16 (3 : Nat)) = some (.lsn 16 3) ∧
        parseOffset (formatSequenceOffset (7 : Nat)) = some (.sequence 7)) ∧
      compareOffsets "16_3" (nextGeneratedOffset "16_3" 0) = .lt ∧
      compareOffsets (nextGeneratedOffset "16_3" 0) (nextGeneratedOffset "16_3" 2) = .lt := by
  obtain ⟨-, invalid, parsed, commits, sequences, next⟩ := offsets_ordered
  have now := parsed "0_7" "0_inf" (.sequence 7) .now (by decide +kernel) (by decide +kernel)
  have same := parsed "0_inf" "0_inf" .now .now (by decide +kernel) (by decide +kernel)
  exact ⟨(invalid "junk" "0_7" (by decide +kernel)).2 (.sequence 7) (by decide +kernel),
    now.1.mpr .sequence_now, same.2.mpr rfl,
    ⟨commits 16 3 (by decide) (by decide), sequences 7 (by decide)⟩,
    next "16_3" (.lsn 16 3) (by decide +kernel) (show (0 : UInt64) < 16 by decide) 0 2
      (by decide) (by decide)⟩

end PostgresSync.Shapes
