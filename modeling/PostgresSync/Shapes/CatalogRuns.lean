import PostgresSync.Shapes.Catalog

namespace PostgresSync.Shapes

open PostgresSync.Data
open PostgresSync.Storage

/-! The calls that change the catalog, and what holds after any run of them. -/

inductive Operation where
  | upsertSnapshot (definition : Definition) (snapshot : SnapshotResult)
  | upsertSnapshotAtOffset (definition : Definition)
      (snapshot : SnapshotResult) (currentOffset : String)
  | lookupOrCreateDefinition (definition : Definition)
  | delete (handle : String)
  | invalidateByRelation (relation : Relation)
  | invalidateAll
  | append (handle : String) (messages : List Message)
  | refreshWithMetadata (handle : String) (snapshot : SnapshotResult)
      (metadata : ChangeMetadata)
  | refreshKeysWithMetadata (handle : String) (snapshot : SnapshotResult)
      (keyRows : List Row) (metadata : ChangeMetadata)

structure Call where
  operation : Operation
  now : Time

namespace Manager

structure Coherent (manager : Manager σ) : Prop where
  sound : manager.registry.TagSound State.hash State.Active
  complete : manager.registry.TagComplete State.hash State.Active
  indexed : manager.registry.Listed State.relationIndex State.Active

theorem Coherent.edits {manager next : Manager σ} (coherent : manager.Coherent)
    (edits : Edits True manager.registry next.registry) : next.Coherent :=
  ⟨edits.tagSound coherent.sound, edits.tagComplete coherent.complete,
    edits.listed coherent.indexed⟩

theorem Coherent.empty (store : σ) : Coherent ({ store := store } : Manager σ) where
  sound := by
    intro hash handle named
    simp [registry] at named
  complete := by
    intro handle state found
    simp [registry] at found
  indexed := by
    intro key handle
    simp [registry]

/-- What every run keeps, whatever it deletes: the indexes name only active
shapes, the relation index lists them all, and every state knows its handle. -/
structure Indexed (manager : Manager σ) : Prop where
  sound : manager.registry.TagSound State.hash State.Active
  listed : manager.registry.Listed State.relationIndex State.Active
  named : manager.registry.Named State.handle

theorem Indexed.edits {manager next : Manager σ} (indexed : manager.Indexed)
    (edits : Edits False manager.registry next.registry) : next.Indexed :=
  ⟨edits.tagSound indexed.sound, edits.listed indexed.listed,
    edits.named indexed.named⟩

theorem Indexed.empty (store : σ) : Indexed ({ store := store } : Manager σ) where
  sound := (Coherent.empty store).sound
  listed := (Coherent.empty store).indexed
  named := by
    intro handle state found
    simp [registry] at found

section Runs

variable [Digest] [Store σ]

def perform (manager : Manager σ) (call : Call) : Manager σ :=
  match call.operation with
  | .upsertSnapshot definition snapshot =>
      (manager.upsertSnapshot definition snapshot call.now).2
  | .upsertSnapshotAtOffset definition snapshot currentOffset =>
      (manager.upsertSnapshotAtOffset definition snapshot currentOffset call.now).2
  | .lookupOrCreateDefinition definition =>
      (manager.lookupOrCreateDefinition definition call.now).2
  | .delete handle => (manager.delete handle call.now).2
  | .invalidateByRelation relation =>
      (manager.invalidateByRelation relation call.now).2
  | .invalidateAll => (manager.invalidateAll call.now).2
  | .append handle messages => (manager.append handle messages call.now).2
  | .refreshWithMetadata handle snapshot metadata =>
      (manager.refreshWithMetadata handle snapshot metadata call.now).2
  | .refreshKeysWithMetadata handle snapshot keyRows metadata =>
      (manager.refreshKeysWithMetadata handle snapshot keyRows metadata call.now).2

def TakesFreshHandle (manager : Manager σ) (call : Call) : Prop :=
  match call.operation with
  | .upsertSnapshot definition _ => manager.FreshHandle definition call.now
  | .upsertSnapshotAtOffset definition _ _ =>
      manager.FreshHandle definition call.now
  | .lookupOrCreateDefinition definition =>
      manager.FreshHandle definition call.now
  | _ => True

/-- A second `Delete` of a shape that the store accepts finds the hash of the
shape unused. -/
def DeletesUnusedHash (manager : Manager σ) (call : Call) : Prop :=
  match call.operation with
  | .delete handle =>
      ∀ state ∈ manager.byHandle[handle]?, state.deleted = true →
        manager.Accepts (state.tombstone call.now) →
          manager.byHash[state.hash]? = none
  | _ => True

instance (manager : Manager σ) (definition : Definition) (now : Time) :
    Decidable (manager.FreshHandle definition now) :=
  inferInstanceAs (Decidable (_ → _))

instance (manager : Manager σ) :
    (call : Call) → Decidable (manager.TakesFreshHandle call)
  | ⟨.upsertSnapshot definition _, now⟩
  | ⟨.upsertSnapshotAtOffset definition _ _, now⟩
  | ⟨.lookupOrCreateDefinition definition, now⟩ =>
      inferInstanceAs (Decidable (manager.FreshHandle definition now))
  | ⟨.delete _, _⟩ | ⟨.invalidateByRelation _, _⟩ | ⟨.invalidateAll, _⟩
  | ⟨.append _ _, _⟩ | ⟨.refreshWithMetadata _ _ _, _⟩
  | ⟨.refreshKeysWithMetadata _ _ _ _, _⟩ => inferInstanceAs (Decidable True)

instance (manager : Manager σ) :
    (call : Call) → Decidable (manager.DeletesUnusedHash call)
  | ⟨.delete handle, now⟩ =>
      inferInstanceAs (Decidable (∀ state ∈ manager.byHandle[handle]?,
        state.deleted = true → manager.Accepts (state.tombstone now) →
          manager.byHash[state.hash]? = none))
  | ⟨.upsertSnapshot _ _, _⟩ | ⟨.upsertSnapshotAtOffset _ _ _, _⟩
  | ⟨.lookupOrCreateDefinition _, _⟩ | ⟨.invalidateByRelation _, _⟩
  | ⟨.invalidateAll, _⟩ | ⟨.append _ _, _⟩ | ⟨.refreshWithMetadata _ _ _, _⟩
  | ⟨.refreshKeysWithMetadata _ _ _ _, _⟩ => inferInstanceAs (Decidable True)

variable {manager : Manager σ} {call : Call}

theorem perform_edits {strict : Prop}
    (sound : manager.registry.TagSound State.hash State.Active)
    (indexed : manager.registry.Listed State.relationIndex State.Active)
    (fresh : manager.TakesFreshHandle call)
    (released : strict → manager.DeletesUnusedHash call) :
    Edits strict manager.registry (manager.perform call).registry := by
  obtain ⟨operation, now⟩ := call
  cases operation with
  | upsertSnapshot definition snapshot =>
      exact upsertSnapshotAtOffset_edits sound fresh
  | upsertSnapshotAtOffset definition snapshot currentOffset =>
      exact upsertSnapshotAtOffset_edits sound fresh
  | lookupOrCreateDefinition definition =>
      exact lookupOrCreateDefinition_edits sound fresh
  | delete handle =>
      refine delete_edits fun isStrict state found accepted => ?_
      cases deleted : state.deleted with
      | false => exact .inl deleted
      | true => exact .inr (released isStrict state found deleted accepted)
  | invalidateByRelation relation => exact invalidateByRelation_edits indexed
  | invalidateAll => exact invalidateAllFrom_edits _ _ _
  | append handle messages => exact append_edits
  | refreshWithMetadata handle snapshot metadata =>
      exact refreshWithMetadata_edits
  | refreshKeysWithMetadata handle snapshot keyRows metadata =>
      exact refreshKeysWithMetadata_edits

theorem Coherent.perform (coherent : manager.Coherent) (fresh : manager.TakesFreshHandle call)
    (released : manager.DeletesUnusedHash call) :
    (manager.perform call).Coherent :=
  coherent.edits (perform_edits coherent.sound coherent.indexed fresh
    fun _ => released)

theorem Indexed.perform (indexed : manager.Indexed) (fresh : manager.TakesFreshHandle call) :
    (manager.perform call).Indexed :=
  indexed.edits (perform_edits indexed.sound indexed.listed fresh False.elim)

end Runs

section Loading

variable {state : State}

theorem unmarshalState_identity {persisted : PersistedShape}
    (decoded : unmarshalState persisted = some state) :
    state.handle = persisted.handle ∧ state.hash = persisted.hash ∧
      state.deleted = persisted.deleted := by
  simp only [unmarshalState, Option.bind_eq_bind, Option.bind_eq_some_iff,
    Option.pure_def, Option.some.injEq] at decoded
  obtain ⟨_, _, _, _, _, _, _, _, _, _, rfl⟩ := decoded
  exact ⟨rfl, rfl, rfl⟩

theorem loadState_byHandle {manager : Manager σ} {handle : String}
    (other : state.handle ≠ handle) :
    (manager.loadState state).byHandle[handle]? = manager.byHandle[handle]? := by
  unfold loadState
  cases deleted : state.deleted <;>
    simp [putState, putHash, addRelationLocked, other]

theorem loadState_byHash {manager : Manager σ} {hash : String}
    (other : state.deleted = false → state.hash ≠ hash) :
    (manager.loadState state).byHash[hash]? = manager.byHash[hash]? := by
  unfold loadState
  cases deleted : state.deleted with
  | true => simp [putState]
  | false => simp [putState, putHash, addRelationLocked, other deleted]

/-- No two records claim one handle, and no two active ones one hash. -/
structure DistinctShapes (shapes : List PersistedShape) : Prop where
  handles : (shapes.map (·.handle)).Nodup
  hashes : ((shapes.filter fun shape => !shape.deleted).map (·.hash)).Nodup

theorem loadPersisted_edits [Store σ] {strict : Prop} (shapes : List PersistedShape) :
    ∀ manager : Manager σ, DistinctShapes shapes →
      (∀ shape ∈ shapes, manager.byHandle[shape.handle]? = none) →
      (∀ shape ∈ shapes, shape.deleted = false →
        manager.byHash[shape.hash]? = none) →
      Edits strict manager.registry (manager.loadPersisted shapes).2.registry := by
  induction shapes with
  | nil => intro manager _ _ _; exact .refl
  | cons shape rest hypothesis =>
      intro manager distinct freshHandles freshHashes
      obtain ⟨newHandle, restHandles⟩ := List.nodup_cons.mp distinct.handles
      have restDistinct : DistinctShapes rest := by
        refine ⟨restHandles, ?_⟩
        have hashes := distinct.hashes
        cases deleted : shape.deleted with
        | true => simpa [deleted] using hashes
        | false =>
            simp only [List.filter_cons, deleted, Bool.not_false, if_true,
              List.map_cons, List.nodup_cons] at hashes
            exact hashes.2
      -- The state loaded for the record shares its handle and, when it is
      -- active, its hash.
      have continues : ∀ (offered : Manager σ) (state : State),
          offered.registry = manager.registry → state.handle = shape.handle →
          (state.deleted = false → shape.deleted = false ∧ state.hash = shape.hash) →
          Edits strict manager.registry
            ((offered.loadState state).loadPersisted rest).2.registry := by
        intro offered state sameRegistry sameHandle activeHash
        have sameByHandle : ∀ handle, offered.byHandle[handle]? =
            manager.byHandle[handle]? := fun handle =>
          congrArg (fun registry => registry.records handle) sameRegistry
        have sameByHash : ∀ hash, offered.byHash[hash]? = manager.byHash[hash]? :=
          fun hash => congrArg (fun registry => registry.byTag hash) sameRegistry
        rw [← sameRegistry]
        refine .trans (loadState_edits ?_ ?_)
          (hypothesis (offered.loadState state) restDistinct ?_ ?_)
        · rw [sameHandle, sameByHandle]
          exact freshHandles shape (by simp)
        · intro active
          obtain ⟨wasActive, sameHash⟩ := activeHash active
          rw [sameHash, sameByHash]
          exact freshHashes shape (by simp) wasActive
        · intro other member
          have different : state.handle ≠ other.handle := by
            rw [sameHandle]
            intro equal
            exact newHandle (List.mem_map.mpr ⟨other, member, equal.symm⟩)
          rw [loadState_byHandle different, sameByHandle]
          exact freshHandles other (by simp [member])
        · intro other member otherActive
          have different : state.deleted = false → state.hash ≠ other.hash := by
            intro active equal
            obtain ⟨wasActive, sameHash⟩ := activeHash active
            have hashes := distinct.hashes
            simp only [List.filter_cons, wasActive, Bool.not_false, if_true,
              List.map_cons, List.nodup_cons] at hashes
            refine hashes.1 (List.mem_map.mpr ⟨other, ?_, ?_⟩)
            · simp [member, otherActive]
            · rw [← equal, sameHash]
          rw [loadState_byHash different, sameByHash]
          exact freshHashes other (by simp [member]) otherActive
      unfold loadPersisted
      cases decoded : unmarshalState shape with
      | some state =>
          obtain ⟨sameHandle, sameHash, sameLife⟩ := unmarshalState_identity decoded
          exact continues manager state rfl sameHandle
            fun active => ⟨sameLife.symm.trans active, sameHash⟩
      | none =>
          exact persistThen_edits (continues _ (corruptState shape) rfl rfl
            (by simp [corruptState]))

end Loading

end Manager

/-- The managers a process starts from: an empty one, or one loaded from a
store. -/
inductive Started [Store σ] : Manager σ → Prop
  | empty (store : σ) : Started { store := store }
  | loaded {store : σ} {shapes : List PersistedShape} {manager : Manager σ}
      (read : Store.loadShapes store = .ok shapes)
      (distinct : Manager.DistinctShapes shapes)
      (loads : Manager.newManager store = (.ok (), manager)) :
      Started manager

theorem Started.edits [Store σ] {manager : Manager σ} (started : Started manager)
    (strict : Prop) :
    ∃ store : σ, Manager.Edits strict ({ store := store } : Manager σ).registry
      manager.registry := by
  cases started with
  | empty store => exact ⟨store, .refl⟩
  | @loaded store shapes manager read distinct loads =>
      have edits : Manager.Edits strict _ _ := Manager.loadPersisted_edits shapes
        { store := store } distinct (by simp) (by simp)
      have result : Manager.loadPersisted { store := store } shapes =
          (.ok (), manager) := by
        simpa [Manager.newManager, read] using loads
      rw [result] at edits
      exact ⟨store, edits⟩

theorem Started.coherent [Store σ] {manager : Manager σ}
    (started : Started manager) : manager.Coherent := by
  obtain ⟨store, edits⟩ := started.edits True
  exact (Manager.Coherent.empty store).edits edits

section

variable [Digest] [Store σ]

structure HashIndexed (manager : Manager σ) : Prop where
  named : ∀ hash handle, manager.byHash[hash]? = some handle ↔
    ∃ state : State, manager.byHandle[handle]? = some state ∧
      state.deleted = false ∧ state.hash = hash
  unique : ∀ (definition : Definition) (first second : String)
      (left right : State),
    manager.byHandle[first]? = some left → left.deleted = false →
    left.hash = canonicalHash definition →
    manager.byHandle[second]? = some right → right.deleted = false →
    right.hash = canonicalHash definition → first = second
  found : ∀ definition, (manager.lookupByDefinition definition).isSome = true ↔
    ∃ (handle : String) (state : State), manager.byHandle[handle]? = some state ∧
      state.deleted = false ∧ state.hash = canonicalHash definition

omit [Store σ] in
theorem Manager.Coherent.hashIndexed {manager : Manager σ}
    (coherent : manager.Coherent) : HashIndexed manager where
  named hash handle :=
    Registry.byTag_eq_some_iff coherent.sound coherent.complete hash handle
  unique definition first second left right leftFound leftActive leftHash
      rightFound rightActive rightHash :=
    Registry.live_unique coherent.complete leftFound leftActive rightFound
      rightActive (leftHash.trans rightHash.symm)
  found definition := by
    simp only [lookupByDefinition, Option.isSome_iff_exists,
      Option.bind_eq_some_iff, Manager.active?_eq_some]
    constructor
    · rintro ⟨state, handle, named, found, active⟩
      obtain ⟨held, present, -, hashed⟩ := coherent.sound _ handle named
      obtain rfl : held = state := by
        have same : manager.byHandle[handle]? = some held := present
        rw [found] at same
        exact (Option.some.inj same).symm
      exact ⟨handle, held, found, active, hashed⟩
    · rintro ⟨handle, state, found, active, hashed⟩
      refine ⟨state, handle, ?_, found, active⟩
      rw [← hashed]
      exact coherent.complete handle state found active

/-- In every run whose repeated deletions find the hash of the tombstone unused,
the hash index names exactly the active shapes. -/
theorem byHash_names_active_shapes {manager : Manager σ} (calls : List Call)
    (started : Started manager)
    (fresh : Along Manager.perform Manager.TakesFreshHandle manager calls)
    (released : Along Manager.perform Manager.DeletesUnusedHash manager calls) :
    HashIndexed (calls.foldl Manager.perform manager) := by
  refine Manager.Coherent.hashIndexed ?_
  refine Along.invariant ?_ calls manager started.coherent
    (Along.and calls manager fresh released)
  intro manager call coherent admissible
  exact coherent.perform admissible.1 admissible.2

end

def deleteTwiceThenCreate : List Call :=
  [⟨.upsertSnapshot itemsDefinition ⟨∅, [], none⟩, 1000⟩,
    ⟨.delete "fa19db76c4-1", 2000⟩,
    ⟨.delete "fa19db76c4-1", 3000⟩,
    ⟨.upsertSnapshot itemsDefinition ⟨∅, [], none⟩, 4000⟩]

theorem byHash_names_active_shapes_deleteTwiceThenCreate :
    letI := tabulatedDigest
    HashIndexed (deleteTwiceThenCreate.foldl Manager.perform
      { store := newMemoryStore }) :=
  @byHash_names_active_shapes _ tabulatedDigest _ _ deleteTwiceThenCreate
    (.empty newMemoryStore) (by decide +kernel) (by decide +kernel)

/-- Create, delete, create again, delete the first shape again. -/
def createBetweenDeletes : List Call :=
  [⟨.upsertSnapshot itemsDefinition ⟨∅, [], none⟩, 1000⟩,
    ⟨.delete "fa19db76c4-1", 2000⟩,
    ⟨.upsertSnapshot itemsDefinition ⟨∅, [], none⟩, 3000⟩,
    ⟨.delete "fa19db76c4-1", 4000⟩]

/-- The second deletion of the first shape takes the second one, which is still
active, out of the hash index. -/
theorem createBetweenDeletes_not_hashIndexed :
    letI := tabulatedDigest
    Along Manager.perform Manager.TakesFreshHandle { store := newMemoryStore }
        createBetweenDeletes ∧
      ¬HashIndexed (createBetweenDeletes.foldl Manager.perform
        { store := newMemoryStore }) := by
  refine ⟨by decide +kernel, fun indexed => ?_⟩
  obtain ⟨state, found, active, hashed⟩ : ∃ state : State,
      (createBetweenDeletes.foldl (@Manager.perform _ tabulatedDigest _)
        { store := newMemoryStore }).byHandle["fa19db76c4-3"]? = some state ∧
      state.deleted = false ∧
      state.hash = @canonicalHash tabulatedDigest itemsDefinition := by
    simpa using (Option.any_eq_true _ _).mp (show Option.any
      (fun state : State => state.deleted = false ∧
        state.hash = @canonicalHash tabulatedDigest itemsDefinition)
      (createBetweenDeletes.foldl (@Manager.perform _ tabulatedDigest _)
        { store := newMemoryStore }).byHandle["fa19db76c4-3"]? = true by
          decide +kernel)
  have lookup := (@HashIndexed.found _ tabulatedDigest _ indexed itemsDefinition).mpr
    ⟨"fa19db76c4-3", state, found, active, hashed⟩
  exact absurd lookup (by decide +kernel)

end PostgresSync.Shapes
