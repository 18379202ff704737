import PostgresSync.Data.Journal
import PostgresSync.Shapes.ChangeLog

namespace PostgresSync.Shapes

open PostgresSync.Data

/-! The offsets of a change log grow, whichever kind of offset the shape is at. -/

namespace ParsedOffset

/-- A commit is never 0, which is how the text of an offset tells a commit from a
sequence number. -/
def Regular : ParsedOffset → Prop
  | .lsn commit _ => 0 < commit
  | _ => True

def ordinal : ParsedOffset → Nat
  | .sequence seq => seq
  | .now => 0
  | .lsn _ opPos => opPos

def next (current : ParsedOffset) (index : Nat) : ParsedOffset :=
  match current with
  | .sequence seq => .sequence (seq + index + 1)
  | .now => .lsn (UInt64.ofNat (index + 1)) 0
  | .lsn commit opPos => .lsn commit (opPos + index + 1)

theorem lt_next (current : ParsedOffset) (index : Nat) : current < current.next index := by
  cases current with
  | sequence seq => exact sequence_lt_sequence.mpr (by omega)
  | now => exact lt_of_offsetRank_lt (by simp [next, offsetRank])
  | lsn commit opPos => exact lsn_lt_lsn.mpr (.inr ⟨rfl, by omega⟩)

theorem next_lt_next (current : ParsedOffset) {left right : Nat} (below : left < right)
    (bound : right + 1 < 2 ^ 64) : current.next left < current.next right := by
  cases current with
  | sequence seq => exact sequence_lt_sequence.mpr (by omega)
  | now =>
      refine lsn_lt_lsn.mpr (.inl ?_)
      rw [UInt64.lt_iff_toNat_lt, UInt64.toNat_ofNat', UInt64.toNat_ofNat',
        Nat.mod_eq_of_lt (by omega), Nat.mod_eq_of_lt bound]
      omega
  | lsn commit opPos => exact lsn_lt_lsn.mpr (.inr ⟨rfl, by omega⟩)

theorem Regular.next {current : ParsedOffset} (regular : current.Regular) {index : Nat}
    (bound : index + 1 < 2 ^ 64) : (current.next index).Regular := by
  cases current with
  | sequence seq => trivial
  | now =>
      show 0 < UInt64.ofNat (index + 1)
      rw [UInt64.lt_iff_toNat_lt, UInt64.toNat_ofNat', Nat.mod_eq_of_lt bound]
      exact Nat.succ_pos index
  | lsn commit opPos => exact regular

theorem ordinal_next_le (current : ParsedOffset) (index : Nat) :
    (current.next index).ordinal ≤ current.ordinal + index + 1 := by
  cases current with
  | sequence seq => exact le_rfl
  | now => exact Nat.zero_le _
  | lsn commit opPos => exact le_rfl

end ParsedOffset

theorem wrapInt_of_lt {n : Nat} (bound : n < 2 ^ 63) : wrapInt (n : Int) = n := by
  unfold wrapInt
  apply Int.bmod_eq_of_le <;> omega

variable {position : ParsedOffset} {messages : List Message}

theorem parseOffset_nextGeneratedOffset {current : String}
    (parsed : parseOffset current = some position) (regular : position.Regular)
    {index : Nat} (bound : position.ordinal + index + 1 < 2 ^ 63) :
    parseOffset (nextGeneratedOffset current index) = some (position.next index) := by
  unfold nextGeneratedOffset
  rw [parsed]
  cases position with
  | sequence seq =>
      have wrapped : wrapInt ((seq : Int) + index + 1) = ((seq + index + 1 : Nat) : Int) :=
        wrapInt_of_lt bound
      dsimp only
      rw [wrapped]
      exact parseOffset_formatSequenceOffset bound
  | now =>
      have positive : 0 < UInt64.ofNat (index + 1) := by
        have next : (ParsedOffset.now.next index).Regular :=
          regular.next (by simp [ParsedOffset.ordinal] at bound; omega)
        exact next
      exact parseOffset_formatLSNOffset positive (by decide)
  | lsn commit opPos =>
      have wrapped : wrapInt ((opPos : Int) + index + 1) =
          ((opPos + index + 1 : Nat) : Int) := wrapInt_of_lt bound
      dsimp only
      rw [wrapped]
      exact parseOffset_formatLSNOffset regular bound

structure StampedAfter (position : ParsedOffset) (messages : List Message) : Prop where
  parsed : ∀ message ∈ messages, ∃ later, parseOffset message.offset = some later ∧
    position < later ∧ later.Regular ∧ later.ordinal ≤ position.ordinal + messages.length
  increasing : messages.Pairwise fun left right =>
    offsetPosition left.offset < offsetPosition right.offset

theorem StampedAfter.of_offsets {text : Nat → String} {stamp : Nat → ParsedOffset}
    (offsets : messages.map (·.offset) = (List.range messages.length).map text)
    (parsed : ∀ index < messages.length, parseOffset (text index) = some (stamp index) ∧
      position < stamp index ∧ (stamp index).Regular ∧
        (stamp index).ordinal ≤ position.ordinal + messages.length)
    (increasing : ∀ left right, left < right → right < messages.length →
      stamp left < stamp right) : StampedAfter position messages where
  parsed message member := by
    have listed : message.offset ∈ messages.map (·.offset) := List.mem_map_of_mem member
    rw [offsets] at listed
    obtain ⟨index, below, same⟩ := List.mem_map.mp listed
    exact ⟨stamp index, same ▸ parsed index (List.mem_range.mp below)⟩
  increasing := by
    have growing : (messages.map (·.offset)).Pairwise fun left right =>
        offsetPosition left < offsetPosition right := by
      rw [offsets, List.pairwise_map]
      refine List.Pairwise.imp_of_mem ?_ List.pairwise_lt_range
      intro left right leftMember rightMember below
      have leftParsed := (parsed left (List.mem_range.mp leftMember)).1
      have rightParsed := (parsed right (List.mem_range.mp rightMember)).1
      rw [offsetPosition_of_parse leftParsed, offsetPosition_of_parse rightParsed,
        WithBot.coe_lt_coe]
      exact increasing left right below (List.mem_range.mp rightMember)
    rw [List.pairwise_map] at growing
    exact growing

theorem applyChangeOffsets_generated {metadata : ChangeMetadata}
    (uncommitted : metadata.commitLSN = 0) (unstamped : ∀ message ∈ messages,
      message.offset = "") (current : String) :
    (applyChangeOffsets current messages metadata).1.map (·.offset) =
      (List.range messages.length).map (nextGeneratedOffset current) := by
  have zero : ¬0 < metadata.commitLSN := by simp [uncommitted]
  have plain : (applyChangeOffsets current messages metadata).1 =
      messages.mapIdx (stampMessage current metadata) := by
    unfold applyChangeOffsets
    dsimp only
    rw [if_neg fun both => zero both.1]
  rw [plain]
  apply List.ext_getElem
  · simp
  · intro index first second
    simp [stampMessage, zero, unstamped]

theorem applyChangeOffsets_stampedAfter {metadata : ChangeMetadata} {current : String}
    (parsed : parseOffset current = some position) (regular : position.Regular)
    (later : metadata.commitLSN = 0 ∨ offsetCommit current < metadata.commitLSN)
    (unstamped : ∀ message ∈ messages, message.offset = "")
    (bound : position.ordinal + messages.length < 2 ^ 63) :
    StampedAfter position (applyChangeOffsets current messages metadata).1 := by
  have count := applyChangeOffsets_length current messages metadata
  by_cases uncommitted : metadata.commitLSN = 0
  · have offsets := applyChangeOffsets_generated uncommitted unstamped current
    rw [← count] at offsets bound
    apply StampedAfter.of_offsets offsets
    · intro index below
      refine ⟨parseOffset_nextGeneratedOffset parsed regular (by omega), position.lt_next index,
        regular.next (by omega), ?_⟩
      have ordinal := position.ordinal_next_le index
      omega
    · intro left right below last
      exact position.next_lt_next below (by omega)
  · have after := later.resolve_left uncommitted
    have committed : 0 < metadata.commitLSN := UInt64.lt_of_le_of_lt UInt64.zero_le after
    have offsets := applyChangeOffsets_offsets committed current messages
    rw [← count] at offsets bound
    apply StampedAfter.of_offsets offsets
    · intro index below
      refine ⟨parseOffset_formatLSNOffset committed (by omega), ?_, committed, ?_⟩
      · cases position with
        | sequence seq => exact ParsedOffset.lt_of_offsetRank_lt (by simp [offsetRank])
        | now => exact ParsedOffset.lt_of_offsetRank_lt (by simp [offsetRank])
        | lsn commit opPos =>
            rw [offsetCommit, parsed] at after
            exact ParsedOffset.lsn_lt_lsn.mpr (.inl after)
      · show index ≤ _
        omega
    · intro left right below _
      exact ParsedOffset.lsn_lt_lsn.mpr (.inr ⟨rfl, below⟩)

/-! The log of a shape. -/

/-- The offsets of the log grow up to the current one. -/
structure State.LogOrdered (state : State) : Prop where
  current : ∃ position, parseOffset state.currentOffset = some position ∧
    position.Regular ∧ position.ordinal ≤ state.changes.length
  below : ∀ message ∈ state.changes,
    offsetPosition message.offset ≤ offsetPosition state.currentOffset
  increasing : state.changes.Pairwise fun left right =>
    offsetPosition left.offset < offsetPosition right.offset

theorem State.LogOrdered.snapshotted {state : State} (unchanged : state.changes = [])
    (offset : state.currentOffset = initialOffset ∨ state.currentOffset = nowOffset) :
    state.LogOrdered where
  current := by
    rcases offset with same | same
    · exact ⟨.sequence 0, same ▸ parseOffset_initialOffset, trivial, Nat.zero_le _⟩
    · exact ⟨.now, same ▸ parseOffset_nowOffset, trivial, Nat.zero_le _⟩
  below := by simp [unchanged]
  increasing := by simp [unchanged]

structure State.Extends (state next : State) (appended : List Message) : Prop where
  shape : next.SameShape state
  changes : next.changes = state.changes ++ appended
  current : next.currentOffset = (appended.getLast?.map (·.offset)).getD state.currentOffset
  later : ∀ message ∈ appended,
    offsetPosition state.currentOffset < offsetPosition message.offset

theorem State.LogOrdered.extends {state next : State} {appended : List Message}
    (ordered : state.LogOrdered) (changes : next.changes = state.changes ++ appended)
    (current : next.currentOffset =
      (appended.getLast?.map (·.offset)).getD state.currentOffset)
    (stamped : ∀ position, parseOffset state.currentOffset = some position →
      StampedAfter position appended) :
    next.LogOrdered ∧ ∀ message ∈ appended,
      offsetPosition state.currentOffset < offsetPosition message.offset := by
  obtain ⟨position, parsed, regular, ordinal⟩ := ordered.current
  have stamps := stamped position parsed
  have later : ∀ message ∈ appended,
      offsetPosition state.currentOffset < offsetPosition message.offset := by
    intro message member
    obtain ⟨stamp, read, after, -⟩ := stamps.parsed message member
    rw [offsetPosition_of_parse parsed, offsetPosition_of_parse read]
    exact WithBot.coe_lt_coe.mpr after
  refine ⟨?_, later⟩
  cases last : appended.getLast? with
  | none =>
      have nothing := List.getLast?_eq_none_iff.mp last
      rw [nothing, List.append_nil] at changes
      rw [last] at current
      have same : next.currentOffset = state.currentOffset := current
      constructor
      · rw [same, changes]
        exact ordered.current
      · rw [same, changes]
        exact ordered.below
      · rw [changes]
        exact ordered.increasing
  | some final =>
      rw [last] at current
      have same : next.currentOffset = final.offset := current
      have member : final ∈ appended := List.mem_of_getLast? last
      constructor
      · obtain ⟨stamp, read, -, fine, small⟩ := stamps.parsed final member
        refine ⟨stamp, same ▸ read, fine, small.trans ?_⟩
        rw [changes, List.length_append]
        omega
      · intro message known
        rw [changes] at known
        rw [same]
        rcases List.mem_append.mp known with old | new
        · exact (ordered.below message old).trans (later final member).le
        · obtain ⟨front, split⟩ := List.getLast?_eq_some_iff.mp last
          rw [split] at new
          rcases List.mem_append.mp new with earlier | own
          · have increasing := stamps.increasing
            rw [split] at increasing
            exact ((List.pairwise_append.mp increasing).2.2 message earlier final
              (by simp)).le
          · rw [List.mem_singleton.mp own]
      · rw [changes, List.pairwise_append]
        refine ⟨ordered.increasing, stamps.increasing, fun left old right new => ?_⟩
        exact (ordered.below left old).trans_lt (later right new)

/-! The refreshes extend the log. -/

section Refreshes

variable {state base : State} {messages : List Message} {metadata : ChangeMetadata}
  {snapshot : SnapshotResult} {now : Time}

theorem logMessages_appends (state : State) (messages : List Message)
    (metadata : ChangeMetadata) :
    let logged := state.logMessages messages metadata
    logged.1.changes = state.changes ++ logged.2 ∧
      logged.1.currentOffset =
        (logged.2.getLast?.map (·.offset)).getD state.currentOffset ∧
      logged.2.length = messages.length := by
  unfold State.logMessages
  split
  · next empty => exact ⟨by simp, rfl, by simp [List.isEmpty_iff.mp empty]⟩
  · exact ⟨rfl, rfl, applyChangeOffsets_length _ _ _⟩

/-- The commit of a refresh is none, or one after that of the current offset. -/
def ChangeMetadata.Later (metadata : ChangeMetadata) (state : State) : Prop :=
  metadata.commitLSN = 0 ∨ offsetCommit state.currentOffset < metadata.commitLSN

instance (metadata : ChangeMetadata) (state : State) : Decidable (metadata.Later state) :=
  inferInstanceAs (Decidable (_ ∨ _))

theorem logMessages_extends (ordered : state.LogOrdered) (later : metadata.Later state)
    (unstamped : ∀ message ∈ messages, message.offset = "")
    (shape : base.SameShape state) (changes : base.changes = state.changes)
    (current : base.currentOffset = state.currentOffset)
    (bound : (base.logMessages messages metadata).1.changes.length < 2 ^ 63) :
    (base.logMessages messages metadata).1.LogOrdered ∧
      state.Extends (base.logMessages messages metadata).1
        (base.logMessages messages metadata).2 := by
  obtain ⟨logged, moved, count⟩ := logMessages_appends base messages metadata
  rw [changes] at logged
  rw [current] at moved
  rw [logged, List.length_append, count] at bound
  have stamped : ∀ position, parseOffset state.currentOffset = some position →
      StampedAfter position (base.logMessages messages metadata).2 := by
    intro position parsed
    obtain ⟨known, read, regular, ordinal⟩ := ordered.current
    obtain rfl := Option.some.inj (read.symm.trans parsed)
    unfold State.logMessages
    split
    · exact ⟨by simp, .nil⟩
    · rw [current]
      exact applyChangeOffsets_stampedAfter parsed regular later unstamped (by omega)
  obtain ⟨next, after⟩ := ordered.extends logged moved stamped
  exact ⟨next, (State.logMessages_sameShape _ _ _).trans shape, logged, moved, after⟩

theorem diffRows_unstamped (definition : Definition) (schema : Schema)
    (previous current : Dict Row) (keyRelation : Relation) :
    ∀ message ∈ diffRows definition schema previous current keyRelation,
      message.offset = "" :=
  fun _ member => (plain_of_mem_diffRows member).1

theorem refreshKeys_extends {keyRows : List Row} {refreshed : State × List Message}
    (ordered : state.LogOrdered) (later : metadata.Later state)
    (computed : state.refreshKeys snapshot keyRows metadata now = some refreshed)
    (bound : refreshed.1.changes.length < 2 ^ 63) :
    refreshed.1.LogOrdered ∧ state.Extends refreshed.1 refreshed.2 := by
  unfold State.refreshKeys at computed
  dsimp only at computed
  split at computed
  · cases computed
  · obtain rfl := Option.some.inj computed
    refine logMessages_extends ordered later ?_ (by exact ⟨rfl, rfl, rfl, rfl⟩) (by rfl)
      (by rfl) bound
    split
    · intro message member
      obtain ⟨plain, known, rfl⟩ := List.mem_map.mp member
      exact diffRows_unstamped _ _ _ _ _ plain known
    · exact diffRows_unstamped _ _ _ _ _

variable [Digest]

theorem decorateDependentRefreshMessages_unstamped {handle : String}
    {definition : Definition} (unstamped : ∀ message ∈ messages, message.offset = "") :
    ∀ message ∈ decorateDependentRefreshMessages handle definition messages metadata,
      message.offset = "" := by
  refine forall_mem_decorateDependentRefreshMessages unstamped ?_ rfl
  intro related message known
  have tagged : (addDependentTag handle message).offset = "" := by
    unfold addDependentTag
    split <;> exact unstamped message known
  unfold decorateMessage
  split
  · rfl
  · dsimp only
    split <;> exact tagged

theorem refresh_extends (ordered : state.LogOrdered) (later : metadata.Later state)
    (bound : (state.refresh snapshot metadata now).1.changes.length < 2 ^ 63) :
    (state.refresh snapshot metadata now).1.LogOrdered ∧
      state.Extends (state.refresh snapshot metadata now).1
        (state.refresh snapshot metadata now).2 := by
  unfold State.refresh at bound ⊢
  dsimp only at bound ⊢
  refine logMessages_extends ordered later ?_ (by exact ⟨rfl, rfl, rfl, rfl⟩) (by rfl)
    (by rfl) bound
  split
  · exact decorateDependentRefreshMessages_unstamped (diffRows_unstamped _ _ _ _ _)
  · exact diffRows_unstamped _ _ _ _ _

end Refreshes

end PostgresSync.Shapes
