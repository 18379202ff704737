import PostgresSync.Shapes.State

namespace PostgresSync.Shapes

open PostgresSync.Data

/-! When a refresh has something to log, and the offsets it is logged under. -/

section Rows

/-- Nothing changes from one version of a row to the next.  A column that the old
version lacks counts as NULL. -/
structure SameRow (old new : Row) : Prop where
  columns : ∀ name ∈ old, name ∈ new
  values : ∀ name : String, old.getD name none = new.getD name none

theorem SameRow.refl (row : Row) : SameRow row row :=
  ⟨fun _ member => member, fun _ => rfl⟩

theorem changedColumns_eq_nil (old new : Row) :
    changedColumns old new = [] ↔ SameRow old new := by
  rw [changedColumns, List.append_eq_nil_iff, List.map_eq_nil_iff, List.filter_eq_nil_iff,
    List.filter_eq_nil_iff]
  constructor
  · rintro ⟨kept, known⟩
    have columns : ∀ name ∈ old, name ∈ new := by
      intro name member
      simpa using known name (by simpa using member)
    refine ⟨columns, fun name => ?_⟩
    by_cases member : name ∈ new
    · have entry : (name, new[name]) ∈ new.toList := by simp
      simpa [Std.ExtTreeMap.getD_eq_getD_getElem?, member] using kept _ entry
    · have absent : name ∉ old := fun present => member (columns name present)
      rw [Std.ExtTreeMap.getD_eq_fallback member, Std.ExtTreeMap.getD_eq_fallback absent]
  · rintro ⟨columns, values⟩
    refine ⟨?_, ?_⟩
    · rintro ⟨name, value⟩ member
      have found : new[name]? = some value := by simpa using member
      simp [values name, Std.ExtTreeMap.getD_eq_getD_getElem?, found]
    · intro name member
      simpa using columns name (by simpa using member)

instance (old new : Row) : Decidable (SameRow old new) :=
  decidable_of_iff _ (changedColumns_eq_nil old new)

def SameEntry : Option Row → Option Row → Prop
  | none, none => True
  | some old, some new => SameRow old new
  | _, _ => False

theorem SameEntry.refl : ∀ entry, SameEntry entry entry
  | none => trivial
  | some row => SameRow.refl row

instance : (old new : Option Row) → Decidable (SameEntry old new)
  | none, none => inferInstanceAs (Decidable True)
  | some old, some new => inferInstanceAs (Decidable (SameRow old new))
  | some _, none | none, some _ => inferInstanceAs (Decidable False)

def SameRows (previous current : Dict Row) : Prop :=
  ∀ key : String, SameEntry previous[key]? current[key]?

theorem SameRows.refl (rows : Dict Row) : SameRows rows rows :=
  fun _ => .refl _

theorem diffRow_eq_none (definition : Definition) (schema : Schema)
    (keyRelation : Relation) (key : String) (old new : Option Row) :
    diffRow definition schema keyRelation key old new = none ↔ SameEntry old new := by
  cases old with
  | none => cases new <;> simp [diffRow, SameEntry]
  | some old =>
      cases new with
      | none => simp [diffRow, SameEntry]
      | some new =>
          by_cases equal : old = new
          · simp [diffRow, SameEntry, equal, SameRow.refl]
          · simp only [diffRow, SameEntry, if_neg equal, Option.map_eq_none_iff,
              updateValues, ← changedColumns_eq_nil, List.isEmpty_iff]
            split
            · simpa
            · split <;> simpa

/-- Before they are stamped, messages have no offset and only the headers of an operation. -/
theorem plain_of_mem_diffRows {definition : Definition} {schema : Schema}
    {previous current : Dict Row} {keyRelation : Relation} {message : Message}
    (member : message ∈ diffRows definition schema previous current keyRelation) :
    message.offset = "" ∧
      ∃ operation, message.headers = operationHeaders operation definition.relation := by
  obtain ⟨key, -, made⟩ := List.mem_filterMap.mp member
  revert made
  cases previous[key]? with
  | none =>
      cases current[key]? with
      | none => nofun
      | some newRow =>
          rintro ⟨⟩
          exact ⟨rfl, _, rfl⟩
  | some oldRow =>
      cases current[key]? with
      | none =>
          rintro ⟨⟩
          exact ⟨rfl, _, rfl⟩
      | some newRow =>
          intro made
          rw [diffRow] at made
          split at made
          · cases made
          · obtain ⟨values, -, rfl⟩ := Option.map_eq_some_iff.mp made
            exact ⟨rfl, _, rfl⟩

theorem mem_diffKeys {previous current : Dict Row} {key : String} :
    key ∈ diffKeys previous current ↔ key ∈ previous ∨ key ∈ current := by
  rw [diffKeys, List.mem_insertionSort, List.mem_append, List.mem_filter]
  by_cases member : key ∈ previous <;> simp [member, Bool.eq_false_iff]

theorem diffRows_eq_nil (definition : Definition) (schema : Schema)
    (previous current : Dict Row) (keyRelation : Relation) :
    diffRows definition schema previous current keyRelation = [] ↔
      SameRows previous current := by
  rw [diffRows, List.filterMap_eq_nil_iff]
  constructor
  · intro silent key
    by_cases member : key ∈ previous ∨ key ∈ current
    · exact (diffRow_eq_none ..).mp (silent key (mem_diffKeys.mpr member))
    · obtain ⟨absent, missing⟩ := not_or.mp member
      rw [Std.ExtTreeMap.getElem?_eq_none absent, Std.ExtTreeMap.getElem?_eq_none missing]
      trivial
  · intro same key _
    exact (diffRow_eq_none ..).mpr (same key)

instance (previous current : Dict Row) : Decidable (SameRows previous current) :=
  decidable_of_iff (∀ key ∈ diffKeys previous current,
    SameEntry previous[key]? current[key]?) <| by
    refine ⟨fun same key => ?_, fun same key _ => same key⟩
    by_cases member : key ∈ previous ∨ key ∈ current
    · exact same key (mem_diffKeys.mpr member)
    · obtain ⟨absent, missing⟩ := not_or.mp member
      rw [Std.ExtTreeMap.getElem?_eq_none absent, Std.ExtTreeMap.getElem?_eq_none missing]
      trivial

theorem getElem?_subsetRows (rows : Dict Row) (keys : StringSet) (key : String) :
    (subsetRows rows keys)[key]? = if key ∈ keys then rows[key]? else none := by
  unfold subsetRows
  by_cases member : key ∈ keys <;>
    cases found : rows[key]? <;>
      simp [Std.ExtTreeMap.getElem?_filter, member, found]

theorem getElem?_overlayRows (materialized currentRows : Dict Row) (keys : StringSet)
    (key : String) :
    (State.overlayRows materialized currentRows keys)[key]? =
      if key ∈ keys then currentRows[key]? else materialized[key]? := by
  unfold State.overlayRows
  by_cases member : key ∈ keys <;>
    cases found : materialized[key]? <;> cases read : currentRows[key]? <;>
      simp [Std.ExtTreeMap.getElem?_union, Std.ExtTreeMap.getElem?_filter, member, found,
        read, Bool.eq_false_iff]

theorem sameRows_subset_overlay (materialized currentRows : Dict Row) (keys : StringSet) :
    SameRows (subsetRows materialized keys)
        (subsetRows (State.overlayRows materialized currentRows keys) keys) ↔
      SameRows materialized (State.overlayRows materialized currentRows keys) := by
  refine forall_congr' fun key => ?_
  rw [getElem?_subsetRows, getElem?_subsetRows, getElem?_overlayRows]
  by_cases member : key ∈ keys
  · simp [member]
  · simp [member, SameEntry.refl]

end Rows

section Stamps

variable {lsn : UInt64} {count : Nat} {state next : State} {messages : List Message}
  {metadata : ChangeMetadata}

def commitOffsets (lsn : UInt64) (count : Nat) : List String :=
  (List.range count).map fun index : Nat => formatLSNOffset lsn index

theorem markLast_offsets (messages : List Message) :
    (markLast messages).map (·.offset) = messages.map (·.offset) := by
  induction messages with
  | nil => rfl
  | cons message rest hypothesis =>
      cases rest with
      | nil => rfl
      | cons next rest => simpa [markLast] using hypothesis

theorem applyChangeOffsets_offsets (committed : 0 < metadata.commitLSN) (current : String)
    (messages : List Message) :
    (applyChangeOffsets current messages metadata).1.map (·.offset) =
      commitOffsets metadata.commitLSN messages.length := by
  have stamped : (messages.mapIdx (stampMessage current metadata)).map (·.offset) =
      commitOffsets metadata.commitLSN messages.length := by
    apply List.ext_getElem
    · simp [commitOffsets]
    · intro index first second
      simp only [List.getElem_map, List.getElem_mapIdx, commitOffsets, List.getElem_range,
        stampMessage, if_pos committed]
      split <;> rfl
  unfold applyChangeOffsets
  dsimp only
  split
  · rw [markLast_offsets, stamped]
  · exact stamped

theorem applyChangeOffsets_length (current : String) (messages : List Message)
    (metadata : ChangeMetadata) :
    (applyChangeOffsets current messages metadata).1.length = messages.length := by
  unfold applyChangeOffsets
  dsimp only
  split
  · have same := congrArg List.length
      (markLast_offsets (messages.mapIdx (stampMessage current metadata)))
    simpa using same
  · simp

theorem applyChangeOffsets_current (current : String) :
    (applyChangeOffsets current messages metadata).2 =
      ((applyChangeOffsets current messages metadata).1.map (·.offset)).getLast?.getD
        current := by
  simp [applyChangeOffsets, List.getLast?_map]

/-- The commit that an offset belongs to; 0 when it belongs to none. -/
def offsetCommit (offset : String) : UInt64 :=
  match parseOffset offset with
  | some (.lsn commit _) => commit
  | _ => 0

theorem offsetPosition_formatLSNOffset (committed : 0 < lsn) {index : Nat}
    (bound : index < 2 ^ 63) :
    offsetPosition (formatLSNOffset lsn index) = (ParsedOffset.lsn lsn index : ParsedOffset) :=
  offsetPosition_of_parse (parseOffset_formatLSNOffset committed bound)

theorem lt_commitOffsets {offset other : String} (later : offsetCommit offset < lsn)
    (bound : count ≤ 2 ^ 63) (member : other ∈ commitOffsets lsn count) :
    compareOffsets offset other = .lt := by
  obtain ⟨index, below, rfl⟩ := List.mem_map.mp member
  have small : index < 2 ^ 63 := (List.mem_range.mp below).trans_le bound
  have committed : 0 < lsn := UInt64.lt_of_le_of_lt (UInt64.zero_le) later
  rw [compareOffsets_eq_lt, offsetPosition_formatLSNOffset committed small]
  unfold offsetCommit at later
  unfold offsetPosition
  cases parsed : parseOffset offset with
  | none => exact WithBot.bot_lt_coe _
  | some position =>
      refine WithBot.coe_lt_coe.mpr ?_
      cases position with
      | sequence seq => exact ParsedOffset.lt_of_offsetRank_lt (by simp [offsetRank])
      | now => exact ParsedOffset.lt_of_offsetRank_lt (by simp [offsetRank])
      | lsn commit position => simp_all [ParsedOffset.lsn_lt_lsn]

theorem commitOffsets_pairwise (committed : 0 < lsn) (bound : count ≤ 2 ^ 63) :
    (commitOffsets lsn count).Pairwise (compareOffsets · · = .lt) := by
  refine List.pairwise_map.mpr ?_
  refine List.Pairwise.imp_of_mem ?_ List.pairwise_lt_range
  intro left right leftMember rightMember below
  have leftSmall := (List.mem_range.mp leftMember).trans_le bound
  have rightSmall := (List.mem_range.mp rightMember).trans_le bound
  rw [compareOffsets_eq_lt, offsetPosition_formatLSNOffset committed leftSmall,
    offsetPosition_formatLSNOffset committed rightSmall, WithBot.coe_lt_coe,
    ParsedOffset.lsn_lt_lsn]
  exact .inr ⟨rfl, below⟩

structure Logged (lsn : UInt64) (count : Nat) (state next : State) : Prop where
  changes : ∃ appended, next.changes = state.changes ++ appended ∧
    appended.map (·.offset) = commitOffsets lsn count
  currentOffset : next.currentOffset =
    (commitOffsets lsn count).getLast?.getD state.currentOffset

theorem Logged.refl (lsn : UInt64) (state : State) : Logged lsn 0 state state :=
  ⟨⟨[], by simp, rfl⟩, rfl⟩

theorem logMessages_logged {base : State} (committed : 0 < metadata.commitLSN)
    (changes : base.changes = state.changes)
    (current : base.currentOffset = state.currentOffset) (messages : List Message) :
    Logged metadata.commitLSN messages.length state
      (base.logMessages messages metadata).1 := by
  unfold State.logMessages
  split
  · next empty =>
      rw [List.isEmpty_iff.mp empty]
      exact ⟨⟨[], by simp [changes], rfl⟩, current⟩
  · have stamped := applyChangeOffsets_offsets committed base.currentOffset messages
    refine ⟨⟨_, by rw [← changes], stamped⟩, ?_⟩
    show (applyChangeOffsets base.currentOffset messages metadata).2 = _
    rw [applyChangeOffsets_current, stamped, current]

theorem logMessages_quiet
    (silent : (state.logMessages messages metadata).2.isEmpty = true) :
    (state.logMessages messages metadata).1 = state := by
  unfold State.logMessages at silent ⊢
  cases messages with
  | nil => rfl
  | cons message rest =>
      have length := applyChangeOffsets_length state.currentOffset (message :: rest) metadata
      simp only [List.isEmpty_cons, Bool.false_eq_true, if_false, List.isEmpty_iff] at silent
      rw [silent] at length
      cases length

theorem logMessages_materialized (state : State) (messages : List Message)
    (metadata : ChangeMetadata) :
    (state.logMessages messages metadata).1.materialized = state.materialized := by
  unfold State.logMessages
  split <;> rfl

end Stamps

section Refreshes

variable {state : State} {snapshot : SnapshotResult} {metadata : ChangeMetadata}
  {now : Time}

theorem refreshKeys_logged {keyRows : List Row} {refreshed : State × List Message}
    (committed : 0 < metadata.commitLSN)
    (computed : state.refreshKeys snapshot keyRows metadata now = some refreshed) :
    refreshed.1.materialized = State.overlayRows state.materialized
        (materializedRows snapshot.schema snapshot.rows)
        (targetedKeySet snapshot.schema keyRows snapshot.rows) ∧
      ∃ count, Logged metadata.commitLSN count state refreshed.1 ∧
        (count = 0 ↔ SameRows state.materialized refreshed.1.materialized) := by
  unfold State.refreshKeys at computed
  dsimp only at computed
  split at computed
  · cases computed
  · obtain rfl := Option.some.inj computed
    rw [logMessages_materialized]
    refine ⟨rfl, _, logMessages_logged committed (by rfl) (by rfl) _, ?_⟩
    rw [applyLiveWireFormat, List.length_map, List.length_eq_zero_iff,
      diffRows_eq_nil, sameRows_subset_overlay]

variable [Digest]

theorem decorateDependentRefreshMessages_eq_nil (handle : String) (definition : Definition)
    (messages : List Message) (metadata : ChangeMetadata) :
    decorateDependentRefreshMessages handle definition messages metadata = [] ↔
      messages = [] := by
  unfold decorateDependentRefreshMessages
  split
  · cases messages with
    | nil => simp
    | cons message rest =>
        dsimp only
        split <;> simp
  · rfl

theorem forall_mem_decorateDependentRefreshMessages {holds : Message → Prop} {handle : String}
    {definition : Definition} {messages : List Message} {metadata : ChangeMetadata}
    (plain : ∀ message ∈ messages, holds message)
    (decorated : ∀ related, ∀ message ∈ messages, holds (decorateMessage handle related message))
    (ended : holds snapshotEndMessage) :
    ∀ message ∈ decorateDependentRefreshMessages handle definition messages metadata,
      holds message := by
  unfold decorateDependentRefreshMessages
  split
  · dsimp only
    split
    · rw [List.forall_mem_append, List.forall_mem_map, List.forall_mem_singleton]
      exact ⟨decorated _, ended⟩
    · rw [List.forall_mem_map]
      exact decorated _
  · exact plain

theorem refresh_logged (committed : 0 < metadata.commitLSN) (state : State)
    (snapshot : SnapshotResult) (now : Time) :
    (state.refresh snapshot metadata now).1.materialized =
        materializedRows snapshot.schema snapshot.rows ∧
      ∃ count, Logged metadata.commitLSN count state
          (state.refresh snapshot metadata now).1 ∧
        (count = 0 ↔ SameRows state.materialized
          (state.refresh snapshot metadata now).1.materialized) := by
  unfold State.refresh
  dsimp only
  rw [logMessages_materialized]
  refine ⟨rfl, _, logMessages_logged committed (by rfl) (by rfl) _, ?_⟩
  rw [List.length_eq_zero_iff]
  split
  · rw [decorateDependentRefreshMessages_eq_nil, diffRows_eq_nil]
  · rw [diffRows_eq_nil]

end Refreshes

end PostgresSync.Shapes
