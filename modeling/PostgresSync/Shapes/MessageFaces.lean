import PostgresSync.Shapes.MoveOut
import PostgresSync.Shapes.Refreshes

namespace PostgresSync.Shapes

open PostgresSync.Data

/-! The keys that the messages of a refresh carry. -/

/-- What a client needs to place a message. -/
def Message.face (message : Message) : String × String × String :=
  (message.key, message.internalKey, message.operation)

theorem Message.face_inj {left right : Message} :
    left.face = right.face ↔ left.key = right.key ∧ left.internalKey = right.internalKey ∧
      left.operation = right.operation := by
  rw [Message.face, Message.face, Prod.mk.injEq, Prod.mk.injEq]

section Faces

variable (current : String) (metadata : ChangeMetadata) (messages : List Message)

theorem stampMessage_face (index : Nat) (message : Message) :
    (stampMessage current metadata index message).face = message.face := by
  unfold stampMessage
  split
  · dsimp only
    split
    · rfl
    · simp [Message.face, Message.operation]
  · split <;> rfl

theorem markLast_face : (markLast messages).map Message.face = messages.map Message.face := by
  induction messages with
  | nil => rfl
  | cons message rest hypothesis =>
      cases rest with
      | nil => simp [markLast, Message.face, Message.operation]
      | cons next rest =>
          rw [markLast, List.map_cons, hypothesis]
          rfl

theorem applyChangeOffsets_face :
    (applyChangeOffsets current messages metadata).1.map Message.face =
      messages.map Message.face := by
  have stamped : (messages.mapIdx (stampMessage current metadata)).map Message.face =
      messages.map Message.face := by
    apply List.ext_getElem
    · simp
    · intro index _ _
      simp [stampMessage_face]
  unfold applyChangeOffsets
  dsimp only
  split
  · rw [markLast_face, stamped]
  · exact stamped

theorem logMessages_face (state : State) :
    (state.logMessages messages metadata).2.map Message.face = messages.map Message.face := by
  unfold State.logMessages
  split
  · next empty => rw [List.isEmpty_iff.mp empty]
  · exact applyChangeOffsets_face _ _ _

theorem applyLiveWireFormat_face (schema : Schema) :
    (applyLiveWireFormat schema messages).map Message.face = messages.map Message.face := by
  rw [applyLiveWireFormat, List.map_map]
  rfl

end Faces

variable {definition : Definition} {schema : Schema}

theorem exists_of_mem_decorateDependentRefreshMessages [Digest] {handle : String}
    {messages : List Message} {metadata : ChangeMetadata}
    (plain : ∀ message ∈ messages, message.Untagged) {message : Message}
    (member : message ∈
      decorateDependentRefreshMessages handle definition messages metadata)
    (changes : message.operation ∈ ["insert", "update", "delete"]) :
    ∃ sent ∈ messages, sent.face = message.face := by
  cases dependent : definitionHasDependencyKeyword definition with
  | false =>
      rw [decorateDependentRefreshMessages, dependent] at member
      exact ⟨message, member, rfl⟩
  | true =>
      obtain ⟨related, -, decorated⟩ :=
        @decorateDependentRefreshMessages_eq _ handle _ dependent messages metadata
      rw [decorated] at member
      rcases List.mem_append.mp member with member | closing
      · obtain ⟨sent, listed, rfl⟩ := List.mem_map.mp member
        by_cases leaves : related = true ∧ sent.operation = "delete"
        · rw [decorateMessage, if_pos (by simpa using leaves)] at changes
          change "" ∈ _ at changes
          simp at changes
        · obtain ⟨key, internalKey, -, operation, -⟩ := (plain sent listed).decorated leaves
          refine ⟨sent, listed, ?_⟩
          rw [Message.face, Message.face, key, internalKey, operation]
      · split at closing
        · rw [List.mem_singleton.mp closing] at changes
          change "" ∈ _ at changes
          simp at changes
        · cases closing

/-- Every message about a row has the key that a snapshot of the shape gives to the row with
that primary key. -/
def KeysStable (definition : Definition) (schema : Schema) (before after : Dict Row)
    (messages : List Message) : Prop :=
  ∀ message ∈ messages, message.operation ∈ ["insert", "update", "delete"] →
    ∀ row, after[message.internalKey]?.or before[message.internalKey]? = some row →
      ∀ rows described, ∀ shown ∈ buildSnapshotMessages definition ⟨schema, rows, described⟩,
        primaryKeyValues schema shown.value = primaryKeyValues schema row →
          message.key = shown.key

theorem buildSnapshotMessages_key {snapshot : SnapshotResult} {shown : Message}
    (member : shown ∈ buildSnapshotMessages definition snapshot) :
    shown.key = messageKey definition.relation snapshot.schema shown.value := by
  unfold buildSnapshotMessages at member
  split at member
  · cases member
  · obtain ⟨row, -, rfl⟩ := List.mem_map.mp member
    rfl

theorem buildSnapshotMessages_singleton (logged : definition.log ≠ "changes_only")
    (schema : Schema) (row : Row)
    (described : Option SnapshotMetadata) :
    ∃ shown ∈ buildSnapshotMessages definition ⟨schema, [row], described⟩, shown.value = row ∧
      shown.key = messageKey definition.relation schema row := by
  rw [buildSnapshotMessages, if_neg logged, List.map_singleton]
  exact ⟨_, List.mem_singleton_self _, rfl, rfl⟩

theorem KeysStable.of_relation {before after : Dict Row} {messages : List Message}
    (placed : ∀ message ∈ messages, message.operation ∈ ["insert", "update", "delete"] →
      ∃ row, after[message.internalKey]?.or before[message.internalKey]? = some row ∧
        message.key = messageKey definition.relation schema row) :
    KeysStable definition schema before after messages := by
  intro message member changes row found rows described shown listed same
  obtain ⟨own, held, key⟩ := placed message member changes
  obtain rfl := Option.some.inj (found.symm.trans held)
  rw [key, buildSnapshotMessages_key listed, messageKey, messageKey, same]

theorem exists_row_of_face {relation : Relation} {before after : Dict Row} {message : Message}
    (member : message.face ∈
      (diffRows definition schema before after relation).map Message.face) :
    ∃ row, after[message.internalKey]?.or before[message.internalKey]? = some row ∧
      message.key = messageKey relation schema row := by
  obtain ⟨sent, listed, same⟩ := List.mem_map.mp member
  obtain ⟨key, -, made⟩ := List.mem_filterMap.mp listed
  obtain ⟨-, internalKey, row, held, shown⟩ := diffRow_sent made
  obtain ⟨keys, internalKeys, -⟩ := Message.face_inj.mp same
  refine ⟨row, ?_, keys.symm.trans shown⟩
  rw [← internalKeys, internalKey]
  exact held

theorem primaryKeyNames_ne_nil_of_mem_targetedKeySet {keyRows rows : List Row} {key : String}
    (member : key ∈ targetedKeySet schema keyRows rows) :
    primaryKeyNames schema ≠ [] := by
  obtain ⟨shown, listed⟩ := mem_targetedKeySet.mp member
  obtain ⟨row, -, same⟩ := List.mem_map.mp listed
  intro keyless
  apply shown
  rw [← same, primaryKeySignature, primaryKeyValues, keyless]
  rfl

section Targeted

variable {state : State} {snapshot : SnapshotResult} {keyRows : List Row}
  {metadata : ChangeMetadata} {now : Time} {refreshed : State × List Message}

def effectiveRelation (definition : Definition) (metadata : ChangeMetadata) : Relation :=
  if metadata.keyRelation = .empty then definition.relation else metadata.keyRelation

theorem State.refreshKeys_face
    (computed : state.refreshKeys snapshot keyRows metadata now = some refreshed) :
    refreshed.2.map Message.face =
      (diffRows state.definition snapshot.schema
        (subsetRows state.materialized (targetedKeySet snapshot.schema keyRows snapshot.rows))
        (subsetRows refreshed.1.materialized
          (targetedKeySet snapshot.schema keyRows snapshot.rows))
        (effectiveRelation state.definition metadata)).map Message.face := by
  rw [State.refreshKeys_materialized computed]
  unfold State.refreshKeys at computed
  dsimp only at computed
  split at computed
  · cases computed
  · obtain rfl := Option.some.inj computed
    rw [logMessages_face]
    split
    · exact applyLiveWireFormat_face _ _
    · rfl

theorem State.refreshKeys_keysStable_iff
    (computed : state.refreshKeys snapshot keyRows metadata now = some refreshed) :
    KeysStable state.definition snapshot.schema state.materialized refreshed.1.materialized
        refreshed.2 ↔
      state.definition.log = "changes_only" ∨
        effectiveRelation state.definition metadata = state.definition.relation ∨
        ∀ key ∈ targetedKeySet snapshot.schema keyRows snapshot.rows,
          SameEntry state.materialized[key]?
            (materializedRows snapshot.schema snapshot.rows)[key]? := by
  have faces := State.refreshKeys_face computed
  have after : ∀ key ∈ targetedKeySet snapshot.schema keyRows snapshot.rows,
      refreshed.1.materialized[key]? =
        (materializedRows snapshot.schema snapshot.rows)[key]? := by
    intro key member
    rw [State.refreshKeys_materialized computed, getElem?_overlayRows, if_pos member]
  have within : ∀ key, (subsetRows refreshed.1.materialized
        (targetedKeySet snapshot.schema keyRows snapshot.rows))[key]?.or
      (subsetRows state.materialized
        (targetedKeySet snapshot.schema keyRows snapshot.rows))[key]? =
      if key ∈ targetedKeySet snapshot.schema keyRows snapshot.rows then
        refreshed.1.materialized[key]?.or state.materialized[key]?
      else none := by
    intro key
    rw [getElem?_subsetRows, getElem?_subsetRows]
    split <;> rfl
  constructor
  · intro stable
    by_contra unstable
    obtain ⟨logged, unstable⟩ := not_or.mp unstable
    obtain ⟨other, differs⟩ := not_or.mp unstable
    push Not at differs
    obtain ⟨key, member, differs⟩ := differs
    -- the message for this key has the key of the other relation
    cases sent : diffRow state.definition snapshot.schema
        (effectiveRelation state.definition metadata) key
        (subsetRows state.materialized
          (targetedKeySet snapshot.schema keyRows snapshot.rows))[key]?
        (subsetRows refreshed.1.materialized
          (targetedKeySet snapshot.schema keyRows snapshot.rows))[key]? with
    | none =>
        rw [diffRow_eq_none, getElem?_subsetRows, getElem?_subsetRows, if_pos member,
          if_pos member, after key member] at sent
        exact differs sent
    | some message =>
        obtain ⟨-, internalKey, row, held, shown⟩ := diffRow_sent sent
        have operation := diffRow_operation sent
        have listed : message.face ∈ refreshed.2.map Message.face := by
          rw [faces]
          refine List.mem_map_of_mem (List.mem_filterMap.mpr ⟨key, ?_, sent⟩)
          rw [mem_diffKeys, Dict.mem_iff_exists, Dict.mem_iff_exists]
          exact (Option.or_eq_some_iff.mp held).symm.imp (⟨row, ·.2⟩) (⟨row, ·⟩)
        rw [within, if_pos member] at held
        obtain ⟨last, found, same⟩ := List.mem_map.mp listed
        obtain ⟨keys, internalKeys, operations⟩ := Message.face_inj.mp same
        obtain ⟨copy, made, value, copied⟩ := buildSnapshotMessages_singleton logged
          snapshot.schema row none
        have changes : last.operation ∈ ["insert", "update", "delete"] := by
          rw [operations, operation]
          exact changeOperation_mem _ _
        rw [← internalKey, ← internalKeys] at held
        have equal := stable last found changes row held [row] none copy made (by rw [value])
        rw [keys, shown, copied] at equal
        have keyed := primaryKeyNames_ne_nil_of_mem_targetedKeySet member
        exact other (messageKey_parts keyed keyed equal).1
  · intro condition
    rcases condition with logged | own | same
    · intro message _ _ row _ rows described shown listed
      rw [buildSnapshotMessages, if_pos logged] at listed
      cases listed
    · apply KeysStable.of_relation
      intro message member _
      have listed : message.face ∈ refreshed.2.map Message.face := List.mem_map_of_mem member
      rw [faces, own] at listed
      obtain ⟨row, held, key⟩ := exists_row_of_face listed
      rw [within] at held
      split at held
      · exact ⟨row, held, key⟩
      · cases held
    · have silent : refreshed.2.map Message.face = [] := by
        rw [faces, List.map_eq_nil_iff, diffRows_eq_nil]
        intro key
        rw [getElem?_subsetRows, getElem?_subsetRows]
        split
        · next member =>
            rw [after key member]
            exact same key member
        · exact .refl none
      rw [List.map_eq_nil_iff.mp silent]
      intro message member
      cases member

end Targeted

theorem State.refresh_keysStable [Digest] (state : State) (snapshot : SnapshotResult)
    (metadata : ChangeMetadata) (now : Time) :
    KeysStable state.definition snapshot.schema state.materialized
      (state.refresh snapshot metadata now).1.materialized
      (state.refresh snapshot metadata now).2 := by
  apply KeysStable.of_relation
  intro message member changes
  rw [State.refresh_materialized]
  unfold State.refresh at member
  dsimp only at member
  have listed : message.face ∈ _ := List.mem_map_of_mem member
  rw [logMessages_face] at listed
  apply exists_row_of_face
  obtain ⟨sent, found, same⟩ := List.mem_map.mp listed
  split at found
  · obtain ⟨plain, made, face⟩ := exists_of_mem_decorateDependentRefreshMessages
      (fun plain made => by
        obtain ⟨key, -, sent⟩ := List.mem_filterMap.mp made
        exact diffRow_untagged sent) found
      (by rw [(Message.face_inj.mp same).2.2]; exact changes)
    rw [← same, ← face]
    exact List.mem_map_of_mem made
  · rw [← same]
    exact List.mem_map_of_mem found

end PostgresSync.Shapes
