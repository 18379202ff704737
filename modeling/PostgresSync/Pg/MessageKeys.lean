import PostgresSync.Pg.BatchOffsets
import PostgresSync.Shapes.MessageFaces

namespace PostgresSync.Pg

open PostgresSync.Data
open PostgresSync.Shapes
open PostgresSync.Storage

/-- The messages of the refreshes that a batch asks for: those of a targeted refresh have the
keys of the snapshot exactly when the log names the relation of the shape, or there is
nothing to send or to agree with; those of a dependent refresh always do. -/
theorem batch_refresh_keysStable_iff [Digest] [Store σ] {manager : Manager σ}
    {handle : String} {state : State} (found : manager.byHandle[handle]? = some state)
    (batch : ChangeBatch) (metadata : RelationMetadata) (now : Time) :
    (∀ snapshot keyRows refreshed,
      (manager.refreshKeysWithMetadata handle snapshot keyRows
        (targetedMetadata batch metadata) now).1 = .ok refreshed →
      (KeysStable state.definition snapshot.schema state.materialized
          refreshed.1.materialized refreshed.2 ↔
        state.definition.log = "changes_only" ∨ metadata.relation = .empty ∨
          metadata.relation = state.definition.relation ∨
          ∀ key ∈ targetedKeySet snapshot.schema keyRows snapshot.rows,
            SameEntry state.materialized[key]?
              (materializedRows snapshot.schema snapshot.rows)[key]?)) ∧
    ∀ snapshot refreshed,
      (manager.refreshWithMetadata handle snapshot (dependentMetadata batch metadata)
        now).1 = .ok refreshed →
      KeysStable state.definition snapshot.schema state.materialized
        refreshed.1.materialized refreshed.2 := by
  have committed : ∀ computed refreshed : State × List Message,
      (manager.commitRefresh handle computed).1 = .ok refreshed → refreshed = computed := by
    intro computed refreshed succeeded
    rcases manager.commitRefresh_outcome handle computed with ⟨answered, -⟩ | ⟨error, failed, -⟩
    · rw [answered] at succeeded
      exact (Except.ok.inj succeeded).symm
    · rw [failed] at succeeded
      cases succeeded
  have effective : effectiveRelation state.definition (targetedMetadata batch metadata) =
      state.definition.relation ↔
        metadata.relation = .empty ∨ metadata.relation = state.definition.relation := by
    rw [effectiveRelation, targetedMetadata]
    by_cases empty : metadata.relation = .empty <;> simp [empty]
  refine ⟨?_, ?_⟩
  · intro snapshot keyRows refreshed succeeded
    rcases Manager.refreshKeysWithMetadata_outcome found snapshot keyRows
        (targetedMetadata batch metadata) now with
      ⟨-, outcome⟩ | ⟨-, none, outcome⟩ | ⟨computed, -, some, outcome⟩
    · rw [outcome] at succeeded
      cases succeeded
    · rw [outcome] at succeeded
      obtain rfl := Except.ok.inj succeeded
      refine iff_of_true (fun message member => nomatch member) (.inr (.inr (.inr ?_)))
      intro key member
      have vacant := State.refreshKeys_eq_none.mp none
      exact absurd member (StringSet.not_mem_of_isEmpty vacant key)
    · rw [outcome] at succeeded
      rw [committed computed refreshed succeeded, State.refreshKeys_keysStable_iff some,
        effective, or_assoc]
  · intro snapshot refreshed succeeded
    rcases Manager.refreshWithMetadata_outcome found snapshot
        (dependentMetadata batch metadata) now with ⟨-, outcome⟩ | ⟨-, outcome⟩
    · rw [outcome] at succeeded
      cases succeeded
    · rw [outcome] at succeeded
      rw [committed _ refreshed succeeded]
      exact State.refresh_keysStable state snapshot _ now

theorem batch_refresh_keysStable_items :
    let outcome := (itemsManagerOver newMemoryStore).refreshKeysWithMetadata "fa19db76c4-1"
      ⟨itemsSchema, [itemRow "2" "two"], none⟩ [Dict.ofPairs [("id", some "2")]]
      (targetedMetadata onePartitionBatch (itemsPartition "items")) 2000
    ∃ refreshed, outcome.1 = .ok refreshed ∧ refreshed.2.map (·.operation) = ["insert"] ∧
      KeysStable itemsBefore.definition itemsSchema itemsBefore.materialized
        refreshed.1.materialized refreshed.2 := by
  intro outcome
  have sent : (outcome.1.toOption.map fun result => result.2.map (·.operation)) =
      some ["insert"] := by
    decide +kernel
  cases answered : outcome.1 with
  | error error =>
      rw [answered] at sent
      cases sent
  | ok refreshed =>
      rw [answered] at sent
      exact ⟨refreshed, rfl, Option.some.inj sent,
        ((@batch_refresh_keysStable_iff _ tabulatedDigest _ (itemsManagerOver newMemoryStore)
          "fa19db76c4-1" itemsBefore (by decide +kernel) onePartitionBatch
          (itemsPartition "items") 2000).1 _ _ refreshed answered).mpr
          (.inr (.inr (.inl (by decide +kernel))))⟩

/-- The row that a transaction puts in a partition has another key in the log than in the
snapshot. -/
theorem onePartition_changes_key :
    (applyToPartitions onePartitionBatch).1 = .ok () ∧
      ((itemsAfter onePartitionBatch).changes.map fun message =>
        (message.operation, message.internalKey, message.key)) =
        [("insert", "2", "\"public\".\"items_a\"/\"2\"")] ∧
      (buildSnapshotMessages itemsBefore.definition
          ⟨itemsSchema, [itemRow "2" "two"], none⟩).map (·.key) =
        ["\"public\".\"items\"/\"2\""] ∧
      ¬KeysStable itemsBefore.definition itemsSchema itemsBefore.materialized
        (itemsAfter onePartitionBatch).materialized (itemsAfter onePartitionBatch).changes := by
  have logged : ((itemsAfter onePartitionBatch).changes.map fun message =>
      (message.operation, message.internalKey, message.key)) =
      [("insert", "2", "\"public\".\"items_a\"/\"2\"")] := by
    decide +kernel
  have held : (itemsAfter onePartitionBatch).materialized["2"]? = some (itemRow "2" "two") := by
    decide +kernel
  refine ⟨by decide +kernel, logged, by decide +kernel, fun stable => ?_⟩
  obtain ⟨message, changes, same⟩ := List.map_eq_singleton_iff.mp logged
  obtain ⟨operation, others⟩ := Prod.mk.inj same
  obtain ⟨internalKey, key⟩ := Prod.mk.inj others
  have member : message ∈ (itemsAfter onePartitionBatch).changes := by
    rw [changes]
    exact List.mem_singleton_self message
  obtain ⟨copy, made, value, copied⟩ := @buildSnapshotMessages_singleton
    itemsBefore.definition (by decide +kernel) itemsSchema (itemRow "2" "two") none
  have equal := stable message member (by rw [operation]; exact .head _) (itemRow "2" "two")
    (by rw [internalKey, held]; rfl) _ none copy made (by rw [value])
  rw [key, copied] at equal
  exact absurd equal (by decide +kernel)

end PostgresSync.Pg
