import PostgresSync.Pg.BatchOffsets

/-!
What becomes of each shape when a batch is applied without an error: it is tombstoned, or it
is refreshed from a read of the whole definition or of the keys of a relation it follows, or
it stays.
-/

namespace PostgresSync.Pg

open PostgresSync.Data
open PostgresSync.Shapes
open PostgresSync.Storage

section Reading

variable {reads : Reads} {batch : ChangeBatch} {now : Time} {item : State}
  {before : Manager σ} {progress final : BatchProgress σ} {cache : RelationCache}
  {relationID : RelationID} {metadata : RelationMetadata}

theorem mem_relationVisits {visit : Visit} :
    visit ∈ relationVisits before cache batch relationID ↔
      ∃ metadata, cache[relationID]? = some metadata ∧
        (changedKeyRows batch relationID).isEmpty = false ∧
        ∃ state ∈ before.activeStates,
          (isTargetedBy state metadata = true ∨ isDependentOn state metadata = true) ∧
          visit = visitTo relationID metadata state := by
  unfold relationVisits
  cases cache[relationID]? with
  | none => simp
  | some metadata =>
      cases (changedKeyRows batch relationID).isEmpty with
      | true => simp
      | false =>
          simp only [Bool.false_eq_true, if_false, List.mem_map, List.mem_append,
            List.mem_filter, Option.some.injEq, exists_eq_left', true_and]
          constructor
          · rintro ⟨state, ⟨member, test⟩ | ⟨member, test⟩, rfl⟩
            · exact ⟨state, member, .inl test, rfl⟩
            · exact ⟨state, member, .inr test, rfl⟩
          · rintro ⟨state, member, test | test, rfl⟩
            · exact ⟨state, .inl ⟨member, test⟩, rfl⟩
            · exact ⟨state, .inr ⟨member, test⟩, rfl⟩

variable [Store σ]

variable [Digest]

section Survivors

variable {earlier later relationIDs : List RelationID} {state : State}
  (indexed : before.Indexed)
  (succeeded : untilError (applyRelation reads batch now cache) { manager := before }
    relationIDs = (.ok (), final))
  (split : relationIDs = earlier ++ relationID :: later)
  (cached : cache[relationID]? = some metadata)
  (changed : (changedKeyRows batch relationID).isEmpty = false)

include indexed succeeded split cached changed

end Survivors

end Reading

section Reactions

variable [Digest] {reads : Reads} {batch : ChangeBatch} {now : Time}

/-- The shape is gone, or has been read again for keys that suffice; `none` is a read of
the whole definition. -/
def Life.Reacts (enough : Option KeyQuery → Prop) (life : Life) : Prop :=
  life.state.deleted = true ∨ ∃ entry ∈ life.installed, enough entry.query

inductive Life.Installs (reads : Reads) (batch : ChangeBatch) (visit : Visit) :
    Option KeyQuery → Prop where
  | whole (dependent : definitionSupportsTargetedRefresh visit.definition = false) :
      Installs reads batch visit none
  | keys (targeted : definitionSupportsTargetedRefresh visit.definition = true)
      {snapshot : SnapshotResult} (read : visit.read reads batch = .ok snapshot) :
      Installs reads batch visit
        (some ⟨visit.metadata.pkColumns,
          filedKeyRows snapshot.schema (changedKeyRows batch visit.relationID)⟩)

variable (reads batch now) in
theorem Life.visit_installed (life : Life) (visit : Visit) :
    (life.visit reads batch now visit).installed = life.installed ∨
      ∃ entry, (life.visit reads batch now visit).installed = life.installed ++ [entry] ∧
        visit.handle = life.state.handle ∧ Life.Installs reads batch visit entry.query := by
  unfold Life.visit
  split
  · exact .inl rfl
  split
  case isTrue targeted =>
    unfold visitTargeted
    split
    · exact .inl rfl
    · exact .inl rfl
    case h_3 snapshot read =>
      split
      case isTrue own => exact .inr ⟨_, rfl, own, .keys targeted read⟩
      case isFalse => exact .inl rfl
  case isFalse dependent =>
    rw [Bool.not_eq_true] at dependent
    unfold visitDependent
    split
    case isTrue own =>
      unfold refreshDependent
      split
      · split
        · exact .inl rfl
        · exact .inl rfl
        · exact .inr ⟨_, rfl, own.1, .whole dependent⟩
      · exact .inl rfl
    case isFalse => exact .inl rfl

variable {state : State} {visits : List Visit}

theorem Life.Reacts.visit {enough : Option KeyQuery → Prop} {life : Life}
    (reacts : life.Reacts enough) (visit : Visit) :
    (life.visit reads batch now visit).Reacts enough := by
  obtain deleted | ⟨entry, member, covered⟩ := reacts
  · rw [Life.visit_of_deleted deleted]
    exact .inl deleted
  · refine .inr ⟨entry, ?_, covered⟩
    obtain same | ⟨_, same, -⟩ := Life.visit_installed reads batch now life visit
    · exact same ▸ member
    · exact same ▸ List.mem_append_left _ member

end Reactions

section Reached

variable {reads : Reads} {batch : ChangeBatch} {now : Time}
  {before : Manager σ} {final : BatchProgress σ} {cache : RelationCache}

/-- A relation of the batch that is cached and has a key to look for. -/
structure ChangeBatch.Handles (batch : ChangeBatch) (cache : RelationCache)
    (relationID : RelationID) (metadata : RelationMetadata) : Prop where
  listed : relationID ∈ batch.sortedRelationIDs
  cached : cache[relationID]? = some metadata
  changed : (changedKeyRows batch relationID).isEmpty = false

/-- What a shape is read again for on behalf of a relation of the batch. -/
def keyQuery (batch : ChangeBatch) (relationID : RelationID) (metadata : RelationMetadata)
    (state : State) : KeyQuery where
  pkColumns := metadata.pkColumns
  keyRows := filedKeyRows
    (schemaForColumns (projectedColumns metadata.columns state.definition.columns))
    (changedKeyRows batch relationID)

/-- The ways in which a batch gets at a shape. -/
inductive ReachedBy (reads : Reads) (batch : ChangeBatch) (cache : RelationCache)
    (active : List State) (enough : Option KeyQuery → Prop) (state : State) : Prop where
  | whole {relationID : RelationID} {metadata : RelationMetadata}
      (handled : batch.Handles cache relationID metadata)
      (dependent : isDependentOn state metadata = true)
  | missing {relationID : RelationID} {metadata : RelationMetadata} {other : State}
      (handled : batch.Handles cache relationID metadata) (listed : other ∈ active)
      (targeted : isTargetedBy other metadata = true)
      (found : findsMissing reads batch state (visitTo relationID metadata other) = true)
  | keys {relationID : RelationID} {metadata : RelationMetadata}
      (handled : batch.Handles cache relationID metadata)
      (targeted : isTargetedBy state metadata = true)
      (covered : enough (some (keyQuery batch relationID metadata state)))

theorem ChangeBatch.Handles.visits {relationID : RelationID} {metadata : RelationMetadata}
    (handled : batch.Handles cache relationID metadata) (before : Manager σ) :
    ∃ earlier later, batch.sortedRelationIDs = earlier ++ relationID :: later ∧
      batchVisits before cache batch =
        earlier.flatMap (relationVisits before cache batch) ++
          ((before.activeStates.filter (isTargetedBy · metadata)).map
            (visitTo relationID metadata) ++
          ((before.activeStates.filter (isDependentOn · metadata)).map
            (visitTo relationID metadata) ++
          later.flatMap (relationVisits before cache batch))) := by
  obtain ⟨earlier, later, order⟩ := List.append_of_mem handled.listed
  refine ⟨earlier, later, order, ?_⟩
  have own : relationVisits before cache batch relationID =
      (before.activeStates.filter (isTargetedBy · metadata)).map
        (visitTo relationID metadata) ++
      (before.activeStates.filter (isDependentOn · metadata)).map
        (visitTo relationID metadata) := by
    rw [relationVisits, handled.cached]
    simp [handled.changed]
  rw [batchVisits, order, List.flatMap_append, List.flatMap_cons, own, List.append_assoc]

variable [Digest] {enough : Option KeyQuery → Prop} {state : State}

variable [Store σ]

end Reached

end PostgresSync.Pg
