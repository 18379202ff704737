import PostgresSync.Shapes.RelationIndex
import PostgresSync.Storage.Interrupted

namespace PostgresSync.Shapes

open PostgresSync.Data
open PostgresSync.Storage

/-! Hydration from records some of which do not decode. -/

/-- The record that is stored once a record has been loaded. -/
def hydratedRecord (shape : PersistedShape) : PersistedShape :=
  if (unmarshalState shape).isSome then shape else marshalState (corruptState shape)

theorem unmarshalState_corruptState (shape : PersistedShape) :
    unmarshalState (marshalState (corruptState shape)) = some (corruptState shape) := rfl

@[simp] theorem hydratedRecord_handle (shape : PersistedShape) :
    (hydratedRecord shape).handle = shape.handle := by
  unfold hydratedRecord
  split <;> rfl

theorem unmarshalState_hydratedRecord (shape : PersistedShape) :
    unmarshalState (hydratedRecord shape) = some (loadedState shape) := by
  unfold hydratedRecord loadedState
  cases decoded : unmarshalState shape with
  | none => exact unmarshalState_corruptState shape
  | some state => exact decoded

def replaceRecord (record : PersistedShape) (shapes : List PersistedShape) :
    List PersistedShape :=
  shapes.map fun other => if other.handle = record.handle then record else other

/-- A store that holds one record for each handle.  It accepts the tombstone of any of them
and holds that in place of the record. -/
structure Keeps [Store σ] (holds : σ → List PersistedShape → Prop) : Prop where
  loads : ∀ {store shapes}, holds store shapes → Store.loadShapes store = .ok shapes
  distinct : ∀ {store shapes}, holds store shapes → (shapes.map (·.handle)).Nodup
  accepts : ∀ {store shapes}, holds store shapes → ∀ shape ∈ shapes,
    (Store.saveShape store (marshalState (corruptState shape))).1 = .ok ()
  buries : ∀ {store shapes}, holds store shapes → ∀ shape ∈ shapes,
    holds (Store.saveShape store (marshalState (corruptState shape))).2
      (replaceRecord (marshalState (corruptState shape)) shapes)

theorem replaceRecord_of_distinct {front rest : List PersistedShape}
    {shape record : PersistedShape} (same : record.handle = shape.handle)
    (distinct : ((front ++ shape :: rest).map (·.handle)).Nodup) :
    replaceRecord record (front ++ shape :: rest) = front ++ record :: rest := by
  have apart : ∀ other, other ∈ front ∨ other ∈ rest → ¬other.handle = record.handle := by
    intro other member equal
    rw [same] at equal
    rw [List.map_append, List.map_cons, List.nodup_append] at distinct
    obtain ⟨-, tail, between⟩ := distinct
    rcases member with earlier | later
    · exact between _ (List.mem_map_of_mem earlier) _ List.mem_cons_self equal
    · exact (List.nodup_cons.mp tail).1 (equal ▸ List.mem_map_of_mem later)
  have unchanged : ∀ others : List PersistedShape,
      (∀ other ∈ others, ¬other.handle = record.handle) →
        others.map (fun other => if other.handle = record.handle then record else other) =
          others := by
    intro others different
    conv_rhs => rw [← List.map_id others]
    exact List.map_congr_left fun other member => if_neg (different other member)
  rw [replaceRecord, List.map_append, List.map_cons, if_pos same.symm,
    unchanged front fun other member => apart other (.inl member),
    unchanged rest fun other member => apart other (.inr member)]

namespace Manager

def withStore (manager : Manager σ) (store : σ) : Manager σ :=
  { manager with store := store }

theorem loadState_withStore (manager : Manager σ) (store : σ) (state : State) :
    (manager.withStore store).loadState state = (manager.loadState state).withStore store := by
  unfold loadState
  cases state.deleted <;> rfl

theorem foldl_loadState_withStore (states : List State) :
    ∀ (manager : Manager σ) (store : σ), states.foldl loadState (manager.withStore store) =
      (states.foldl loadState manager).withStore store := by
  induction states with
  | nil =>
      intro manager store
      rfl
  | cons state rest hypothesis =>
      intro manager store
      rw [List.foldl_cons, List.foldl_cons, loadState_withStore, hypothesis]

section Loading

variable [Store σ] {holds : σ → List PersistedShape → Prop}

theorem loadPersisted_hydrates (keeps : Keeps holds) (rest : List PersistedShape) :
    ∀ (done : List PersistedShape) (manager : Manager σ),
      holds manager.store (done.map hydratedRecord ++ rest) →
        ∃ store, holds store ((done ++ rest).map hydratedRecord) ∧
          manager.loadPersisted rest =
            (.ok (), ((rest.map loadedState).foldl loadState manager).withStore store) := by
  induction rest with
  | nil =>
      intro done manager held
      rw [List.append_nil] at held ⊢
      exact ⟨manager.store, held, rfl⟩
  | cons shape rest hypothesis =>
      intro done manager held
      have shifted : done ++ shape :: rest = (done ++ [shape]) ++ rest := by simp
      rw [shifted, List.map_cons, List.foldl_cons]
      cases decoded : unmarshalState shape with
      | some state =>
          have same : loadedState shape = state := by rw [loadedState, decoded, Option.getD_some]
          have kept : hydratedRecord shape = shape := by rw [hydratedRecord, decoded]; rfl
          simp only [loadPersisted, decoded, same]
          apply hypothesis (done ++ [shape]) (manager.loadState state)
          rw [loadState_store, List.map_append, List.append_assoc, List.map_singleton, kept]
          exact held
      | none =>
          have same : loadedState shape = corruptState shape := by
            rw [loadedState, decoded, Option.getD_none]
          have buried : hydratedRecord shape = marshalState (corruptState shape) := by
            rw [hydratedRecord, decoded]
            rfl
          have member : shape ∈ done.map hydratedRecord ++ shape :: rest := by simp
          have accepted : manager.Accepts (corruptState shape) := keeps.accepts held shape member
          have after := keeps.buries held shape member
          have handle : (marshalState (corruptState shape)).handle = shape.handle := rfl
          rw [replaceRecord_of_distinct handle (keeps.distinct held)] at after
          simp only [loadPersisted, decoded, same]
          rw [persistThen_of_accepts accepted]
          have offered : manager.offered (corruptState shape) =
              manager.withStore (manager.offered (corruptState shape)).store := rfl
          obtain ⟨store, stored, loaded⟩ := hypothesis (done ++ [shape])
            ((manager.offered (corruptState shape)).loadState (corruptState shape)) (by
              rw [loadState_store, List.map_append, List.append_assoc, List.map_singleton, buried]
              exact after)
          refine ⟨store, stored, loaded.trans ?_⟩
          rw [offered, loadState_withStore, foldl_loadState_withStore]
          rfl

omit [Store σ] in
theorem byHash_foldl_loadState (states : List State) :
    ∀ (manager : Manager σ) (hash : String),
      (manager.byHash[hash]?.isSome = true ∨
        ∃ state ∈ states, state.deleted = false ∧ state.hash = hash) →
      (states.foldl loadState manager).byHash[hash]?.isSome = true := by
  induction states with
  | nil =>
      intro manager hash known
      simpa using known
  | cons state rest hypothesis =>
      intro manager hash known
      rw [List.foldl_cons]
      apply hypothesis
      by_cases own : state.deleted = false ∧ state.hash = hash
      · obtain ⟨active, rfl⟩ := own
        refine .inl ?_
        simp [loadState, active, putState, putHash, addRelationLocked]
      · rcases known with known | ⟨other, member, active, hashed⟩
        · rw [loadState_byHash fun active hashed => own ⟨active, hashed⟩]
          exact .inl known
        · rcases List.mem_cons.mp member with rfl | later
          · exact absurd ⟨active, hashed⟩ own
          · exact .inr ⟨other, later, active, hashed⟩

end Loading

end Manager

/-! What hydration gives. -/

section

variable [Digest] [Store σ]

/-- What is promised of every record: the state of one that decodes, with its place in the
indexes, and the tombstone of one that does not. -/
structure Hydrated (shapes : List PersistedShape) (manager : Manager σ) : Prop where
  decoded : ∀ shape ∈ shapes, ∀ state, unmarshalState shape = some state →
    manager.byHandle[shape.handle]? = some state
  active : ∀ shape ∈ shapes, ∀ state, unmarshalState shape = some state →
    state.deleted = false →
    (∀ other ∈ shapes, ∀ held, unmarshalState other = some held → held.deleted = false →
      held.hash = state.hash → other = shape) →
    manager.lookupByHandle state.handle = some state ∧
      (∀ definition, canonicalHash definition = state.hash →
        manager.lookupByDefinition definition = some state) ∧
      state ∈ manager.activeByRelation state.definition.relation
  corrupt : ∀ shape ∈ shapes, unmarshalState shape = none →
    manager.byHandle[shape.handle]? = some (corruptState shape) ∧
      (∀ hash : String, manager.byHash[hash]? ≠ some shape.handle) ∧
      (∀ key : String, shape.handle ∉ manager.byRelation.getD key ∅) ∧
      ∀ offset, manager.read shape.handle offset = .error .shapeDeleted

variable {holds : σ → List PersistedShape → Prop} {store : σ} {shapes : List PersistedShape}

omit [Digest] in
/-- The manager that hydration leads to, over the store that it leaves. -/
theorem newManager_hydrates (keeps : Keeps holds) (held : holds store shapes) :
    ∃ after, holds after (shapes.map hydratedRecord) ∧
      Manager.newManager store =
        (.ok (), (shapes.map loadedState).foldl Manager.loadState { store := after }) := by
  obtain ⟨after, stored, loaded⟩ :=
    Manager.loadPersisted_hydrates keeps shapes [] { store := store } held
  refine ⟨after, stored, ?_⟩
  rw [Manager.newManager, keeps.loads held]
  dsimp only
  rw [loaded, ← Manager.foldl_loadState_withStore]
  rfl

omit [Digest] in
theorem newManager_hydrated (keeps : Keeps holds)
    (held : holds store (shapes.map hydratedRecord)) :
    Manager.newManager store =
      (.ok (), (shapes.map loadedState).foldl Manager.loadState { store := store }) := by
  rw [Manager.newManager, keeps.loads held]
  dsimp only
  rw [Manager.loadPersisted_of_decoding]
  · rw [List.map_map]
    have same : loadedState ∘ hydratedRecord = loadedState := by
      funext shape
      rw [Function.comp_apply, loadedState, unmarshalState_hydratedRecord, Option.getD_some]
    rw [same]
  · intro record member
    obtain ⟨shape, -, rfl⟩ := List.mem_map.mp member
    rw [unmarshalState_hydratedRecord]
    rfl

structure Loaded (shapes : List PersistedShape) (manager : Manager σ) : Prop where
  indexed : manager.Indexed
  found : ∀ shape ∈ shapes, manager.byHandle[shape.handle]? = some (loadedState shape)
  only : ∀ (handle : String) (state : State), manager.byHandle[handle]? = some state →
    ∃ shape ∈ shapes, shape.handle = handle ∧ loadedState shape = state
  hashed : ∀ shape ∈ shapes, (loadedState shape).deleted = false →
    manager.byHash[(loadedState shape).hash]?.isSome = true

omit [Digest] in
theorem Loaded.of_newManager (keeps : Keeps holds)
    (held : holds store (shapes.map hydratedRecord)) :
    Loaded shapes ((shapes.map loadedState).foldl Manager.loadState { store := store }) := by
  have decode : ∀ record ∈ shapes.map hydratedRecord, (unmarshalState record).isSome = true := by
    intro record member
    obtain ⟨shape, -, rfl⟩ := List.mem_map.mp member
    rw [unmarshalState_hydratedRecord]
    rfl
  have same : (Manager.loadPersisted { store := store } (shapes.map hydratedRecord)).2 =
      (shapes.map loadedState).foldl Manager.loadState { store := store } := by
    have again := newManager_hydrated keeps held
    rw [Manager.newManager, keeps.loads held] at again
    exact congrArg Prod.snd again
  obtain ⟨indexed, -, found, others⟩ := Manager.loadPersisted_decoding
    (shapes.map hydratedRecord) { store := store } decode (keeps.distinct held) (by simp)
    (.empty store)
  rw [same] at indexed found others
  have present : ∀ shape ∈ shapes,
      ((shapes.map loadedState).foldl Manager.loadState { store := store }).byHandle[
        shape.handle]? = some (loadedState shape) := by
    intro shape member
    have loaded := found (hydratedRecord shape) (List.mem_map_of_mem member)
    rwa [hydratedRecord_handle, unmarshalState_hydratedRecord] at loaded
  refine ⟨indexed, present, fun handle state known => ?_, fun shape member active => ?_⟩
  · by_cases listed : ∃ shape ∈ shapes, shape.handle = handle
    · obtain ⟨shape, member, rfl⟩ := listed
      exact ⟨shape, member, rfl, Option.some.inj ((present shape member).symm.trans known)⟩
    · rw [others handle] at known
      · simp at known
      · intro record member named
        obtain ⟨shape, listing, rfl⟩ := List.mem_map.mp member
        exact listed ⟨shape, listing, (hydratedRecord_handle shape).symm.trans named⟩
  · apply Manager.byHash_foldl_loadState
    exact .inr ⟨loadedState shape, List.mem_map_of_mem member, active, rfl⟩

omit [Store σ] in
theorem Loaded.hydrated {manager : Manager σ} (loaded : Loaded shapes manager) :
    Hydrated shapes manager where
  decoded shape member state decoded := by
    rw [loaded.found shape member, loadedState, decoded, Option.getD_some]
  active shape member state decoded active only := by
    have same : loadedState shape = state := by rw [loadedState, decoded, Option.getD_some]
    have handle : state.handle = shape.handle := (Manager.unmarshalState_identity decoded).1
    have found : manager.active? state.handle = some state := by
      refine Manager.active?_eq_some.mpr ⟨?_, active⟩
      rw [handle, loaded.found shape member, same]
    refine ⟨found, fun definition hash => ?_,
      (mem_activeByRelation loaded.indexed).mpr ⟨found, rfl⟩⟩
    have known := loaded.hashed shape member (same ▸ active)
    obtain ⟨named, entry⟩ := Option.isSome_iff_exists.mp known
    rw [same] at entry
    obtain ⟨held, present, alive, hashed⟩ := loaded.indexed.sound _ _ entry
    obtain ⟨other, listed, rfl, origin⟩ := loaded.only named held present
    -- the state that the index names comes from a record of this hash that decodes
    have sole : other = shape := by
      cases read : unmarshalState other with
      | none =>
          rw [loadedState, read, Option.getD_none] at origin
          rw [← origin] at alive
          cases alive
      | some state =>
          rw [loadedState, read, Option.getD_some] at origin
          subst origin
          exact only other listed state read alive hashed
    subst sole
    rw [Manager.lookupByDefinition, hash, entry, Option.bind_some, ← handle]
    exact found
  corrupt shape member broken := by
    have found := loaded.found shape member
    rw [loadedState, broken, Option.getD_none] at found
    have dead : ∀ state, manager.byHandle[shape.handle]? = some state →
        state.deleted = true := by
      intro state held
      rw [← Option.some.inj (found.symm.trans held)]
      rfl
    refine ⟨found, fun hash named => ?_, fun key listed => ?_, fun offset => ?_⟩
    · obtain ⟨state, held, active, -⟩ := loaded.indexed.sound hash shape.handle named
      cases (dead state held).symm.trans active
    · obtain ⟨state, held, active, -⟩ := (loaded.indexed.listed key shape.handle).mp listed
      cases (dead state held).symm.trans active
    · simp [Manager.read, Manager.readLocked, found, corruptState]

/-- Over a store that keeps what it accepts, hydration succeeds, what it makes of a record does
not depend on the others, and hydration from what it leaves in the store gives the same
manager. -/
theorem corruption_stays_local (keeps : Keeps holds) (held : holds store shapes) :
    ∃ manager : Manager σ, Manager.newManager store = (.ok (), manager) ∧
      Hydrated shapes manager ∧ holds manager.store (shapes.map hydratedRecord) ∧
      Manager.newManager manager.store = (.ok (), manager) := by
  obtain ⟨after, stored, loaded⟩ := newManager_hydrates keeps held
  have left : ((shapes.map loadedState).foldl Manager.loadState { store := after }).store =
      after := by
    have same := Manager.foldl_loadState_withStore (shapes.map loadedState) { store := after } after
    exact congrArg Manager.store same
  refine ⟨_, loaded, (Loaded.of_newManager keeps stored).hydrated, ?_, ?_⟩
  · rw [left]
    exact stored
  · rw [left]
    exact newManager_hydrated keeps stored

end

/-! The two stores of the program. -/

def Keyed (records : Dict PersistedShape) : Prop :=
  ∀ (handle : String) (record : PersistedShape), records[handle]? = some record →
    record.handle = handle

theorem Keyed.ofPairs (records : List PersistedShape) :
    Keyed (Dict.ofPairs (records.map fun record => (record.handle, record))) := by
  intro handle record found
  rw [Dict.getElem?_ofPairs] at found
  obtain ⟨pair, first, rfl⟩ := Option.map_eq_some_iff.mp found
  have named : pair.1 = handle := by simpa using List.find?_some first
  have member := List.mem_reverse.mp (List.mem_of_find?_eq_some first)
  obtain ⟨record, -, rfl⟩ := List.mem_map.mp member
  exact named

theorem Keyed.handles {records : Dict PersistedShape} (keyed : Keyed records) :
    records.values.map (·.handle) = records.toList.map (·.1) := by
  rw [Dict.values_eq, List.map_map]
  apply List.map_congr_left
  intro entry member
  exact keyed entry.1 entry.2 (Std.ExtTreeMap.mem_toList_iff_getElem?_eq_some.mp member)

theorem Keyed.values_insert {records : Dict PersistedShape} (keyed : Keyed records)
    {record : PersistedShape} (known : record.handle ∈ records) :
    (records.insert record.handle record).values = replaceRecord record records.values := by
  rw [Dict.values_eq, Dict.toList_insert_of_mem known, replaceRecord, Dict.values_eq, List.map_map,
    List.map_map]
  apply List.map_congr_left
  intro entry member
  have own := keyed entry.1 entry.2 (Std.ExtTreeMap.mem_toList_iff_getElem?_eq_some.mp member)
  simp only [Function.comp_apply, own]
  split <;> rfl

def MemoryHoldsRecords (store : MemoryStore) (shapes : List PersistedShape) : Prop :=
  store.shapes.values = shapes ∧ Keyed store.shapes

theorem memoryStore_keeps : Keeps MemoryHoldsRecords where
  loads held := congrArg Except.ok held.1
  distinct held := by
    rw [← held.1, held.2.handles]
    exact Dict.nodup_keys_toList _
  accepts _ _ _ := rfl
  buries {store shapes} held shape member := by
    obtain ⟨rfl, keyed⟩ := held
    obtain ⟨handle, found⟩ := Dict.mem_values.mp member
    obtain rfl := keyed handle shape found
    refine ⟨keyed.values_insert (Dict.mem_iff_exists.mpr ⟨shape, found⟩), ?_⟩
    intro handle record stored
    dsimp only [Store.saveShape] at stored
    rw [Dict.getElem?_insert] at stored
    split at stored
    · next same => rw [← Option.some.inj stored, same]
    · exact keyed handle record stored

/-- The records of a disk store in which no two shapes share a chunk file. -/
structure DiskHoldsRecords (disk : DiskStore) (shapes : List PersistedShape) : Prop where
  loads : disk.loadShapes = shapes
  apart : ∀ left ∈ disk.tables.chunks, ∀ right ∈ disk.tables.chunks, left.path = right.path →
    left.handle = right.handle
  small : ∀ (handle : String) (row : ShapeRow), disk.tables.shapes[handle]? = some row →
    row.generation < 2 ^ 63

section Disk

variable {disk after : DiskStore}

theorem loadShapeChanges_of_frame {handle : String}
    (rows : after.tables.rowsOf handle = disk.tables.rowsOf handle)
    (files : ∀ row ∈ disk.tables.rowsOf handle, after.files[row.path]? = disk.files[row.path]?) :
    after.loadShapeChanges handle = disk.loadShapeChanges handle := by
  have queried : after.tables.chunkRows handle = disk.tables.chunkRows handle :=
    congrArg (List.insertionSort fun left right : ChunkRow => left.seq ≤ right.seq) rows
  unfold DiskStore.loadShapeChanges
  dsimp only
  rw [queried]
  congr 1
  apply mapM_congr
  intro path member
  rw [List.mem_insertionSort, List.mem_map] at member
  obtain ⟨row, listed, rfl⟩ := member
  rw [files row ((List.mem_insertionSort _).mp listed)]

variable {shape : PersistedShape}

theorem saveShape_buries (deleted : shape.deleted = true) (valid : rowError shape = none) :
    (disk.saveShape shape).1 = .ok () ∧
      (disk.saveShape shape).2.tables.shapes =
        disk.tables.shapes.insert shape.handle (shapeRow shape 0) ∧
      (disk.saveShape shape).2.tables.chunks =
        disk.tables.chunks.filter (fun row => row.handle ≠ shape.handle) ∧
      ∀ path : String, (∀ row ∈ disk.tables.rowsOf shape.handle, row.path ≠ path) →
        (disk.saveShape shape).2.files[path]? = disk.files[path]? := by
  have script : disk.saveScript shape = _ := saveScript_cleared (.inl deleted)
  simp only [valid] at script
  obtain ⟨tables, files⟩ := run_clearChunks disk.toSession
    (loadChunkMetadata disk.tables shape.handle).paths shape.handle
  simp only [DiskStore.saveShape, script, List.foldl_append, List.foldl_cons, List.foldl_nil]
  refine ⟨trivial, ?_, ?_, fun path foreign => ?_⟩
  · dsimp only [Session.run]
    rw [tables]
    rfl
  · dsimp only [Session.run]
    rw [tables]
    rfl
  · refine (files path).trans (if_neg fun member => ?_)
    obtain ⟨row, listed, same⟩ := List.mem_map.mp member
    exact foreign row ((List.mem_insertionSort _).mp listed) same

theorem DiskHoldsRecords.valid {shapes : List PersistedShape}
    (held : DiskHoldsRecords disk shapes) (member : shape ∈ shapes) :
    rowError (marshalState (corruptState shape)) = none := by
  rw [← held.loads] at member
  obtain ⟨handle, row, found, rfl⟩ := DiskStore.mem_loadShapes.mp member
  have small := held.small handle row found
  simpa [rowError, marshalState, corruptState, DiskStore.loadShape] using small

theorem DiskHoldsRecords.loadShapes_buried {shapes : List PersistedShape}
    (held : DiskHoldsRecords disk shapes) (member : shape ∈ shapes) :
    (disk.saveShape (marshalState (corruptState shape))).2.loadShapes =
      replaceRecord (marshalState (corruptState shape)) shapes := by
  obtain ⟨-, rows, chunks, files⟩ :=
    @saveShape_buries disk (marshalState (corruptState shape)) rfl (held.valid member)
  obtain rfl := held.loads
  obtain ⟨handle, row, found, rfl⟩ := DiskStore.mem_loadShapes.mp member
  have known : handle ∈ disk.tables.shapes := Dict.mem_iff_exists.mpr ⟨row, found⟩
  generalize (disk.saveShape
    (marshalState (corruptState (disk.loadShape handle row)))).2 = after at *
  change after.tables.shapes = disk.tables.shapes.insert handle _ at rows
  change after.tables.chunks = disk.tables.chunks.filter (fun chunk => chunk.handle ≠ handle)
    at chunks
  have kept : ∀ other, other ≠ handle →
      after.tables.rowsOf other = disk.tables.rowsOf other := by
    intro other different
    rw [Tables.rowsOf, Tables.rowsOf, chunks, List.filter_filter]
    apply List.filter_congr
    intro chunk _
    by_cases own : chunk.handle = other
    · simp [own, different]
    · simp [own]
  unfold DiskStore.loadShapes
  rw [rows, Dict.toList_insert_of_mem known, replaceRecord, List.map_map, List.map_map]
  apply List.map_congr_left
  intro entry _
  by_cases own : entry.1 = handle
  · have nothing : after.loadShapeChanges handle = some [] := by
      have none : after.tables.rowsOf handle = [] := by
        rw [Tables.rowsOf, chunks, List.filter_filter]
        apply List.filter_eq_nil_iff.mpr
        simp
      have queried : after.tables.chunkRows handle = [] := congrArg (List.insertionSort _) none
      simp [DiskStore.loadShapeChanges, queried]
    have same : (disk.loadShape entry.1 entry.2).handle =
        (marshalState (corruptState (disk.loadShape handle row))).handle := own
    simp only [Function.comp_apply]
    rw [if_pos own, if_pos same]
    simp [DiskStore.loadShape, nothing, shapeRow, marshalState, corruptState]
  · have different : ¬(disk.loadShape entry.1 entry.2).handle =
        (marshalState (corruptState (disk.loadShape handle row))).handle := own
    simp only [Function.comp_apply]
    rw [if_neg own, if_neg different]
    have changes : after.loadShapeChanges entry.1 = disk.loadShapeChanges entry.1 := by
      apply loadShapeChanges_of_frame (kept entry.1 own)
      intro chunk listed
      apply files
      intro foreign burying same
      obtain ⟨chunkKnown, chunkOwn⟩ := List.mem_filter.mp listed
      obtain ⟨foreignKnown, foreignOwn⟩ := List.mem_filter.mp burying
      have equal := held.apart foreign foreignKnown chunk chunkKnown same
      rw [of_decide_eq_true chunkOwn, of_decide_eq_true foreignOwn] at equal
      exact own equal.symm
    simp [DiskStore.loadShape, changes]

theorem diskStore_keeps : Keeps DiskHoldsRecords where
  loads held := congrArg Except.ok held.loads
  distinct {disk shapes} held := by
    rw [← held.loads, DiskStore.loadShapes, List.map_map]
    exact Dict.nodup_keys_toList disk.tables.shapes
  accepts held shape member := (saveShape_buries rfl (held.valid member)).1
  buries {disk shapes} held shape member := by
    obtain ⟨-, rows, chunks, -⟩ :=
      @saveShape_buries disk (marshalState (corruptState shape)) rfl (held.valid member)
    refine ⟨held.loadShapes_buried member, ?_, ?_⟩
    · intro left leftKnown right rightKnown
      change left ∈ (disk.saveShape _).2.tables.chunks at leftKnown
      change right ∈ (disk.saveShape _).2.tables.chunks at rightKnown
      rw [chunks] at leftKnown rightKnown
      exact held.apart left (List.mem_of_mem_filter leftKnown) right
        (List.mem_of_mem_filter rightKnown)
    · intro handle row found
      change (disk.saveShape _).2.tables.shapes[handle]? = some row at found
      rw [rows, Dict.getElem?_insert] at found
      split at found
      · obtain rfl := Option.some.inj found
        rw [← held.loads] at member
        obtain ⟨own, origin, known, rfl⟩ := DiskStore.mem_loadShapes.mp member
        exact held.small own origin known
      · exact held.small handle row found

/-- The disks that the saves of the manager lead to keep the files of their shapes apart,
whatever becomes of the contents of the records. -/
theorem DiskHoldsRecords.of_tidy {chunkDir : String} (tidy : disk.Tidy chunkDir)
    (small : ∀ (handle : String) (row : ShapeRow), disk.tables.shapes[handle]? = some row →
      row.generation < 2 ^ 63) : DiskHoldsRecords disk disk.loadShapes := by
  refine ⟨rfl, fun left leftKnown right rightKnown same => ?_, small⟩
  by_contra different
  have own : ∀ row ∈ disk.tables.chunks, row ∈ disk.tables.rowsOf row.handle := by
    intro row known
    exact List.mem_filter.mpr ⟨known, decide_eq_true rfl⟩
  have path : ∀ row ∈ disk.tables.chunks,
      row.path ∈ (disk.tables.chunkRows row.handle).map (·.path) := by
    intro row known
    exact List.mem_map_of_mem ((List.mem_insertionSort _).mpr (own row known))
  obtain ⟨n, numbered⟩ := tidy.numbered right.handle
  have placed := path right rightKnown
  rw [numbered.paths] at placed
  obtain ⟨seq, -, written⟩ := List.mem_map.mp placed
  have named := tidy.handles right.handle
    (tidy.owned _ (List.ne_nil_of_mem (own right rightKnown)))
  exact tidy.path_of_other named (fun equal => different equal.symm) (path left leftKnown) seq
    (same.trans written.symm)

end Disk

def threeRecords : List PersistedShape :=
  let record : PersistedShape := {
    handle := "a-1"
    hash := "a"
    definition := .encoded itemsDefinition
    schema := .encoded itemsSchema
    snapshot := .encoded []
    materialized := .absent
    currentOffset := "0_0"
    lastAccess := 0
    generation := 1
    deleted := false
    changes := [] }
  [record, { record with handle := "b-2", hash := "b", deleted := true },
    { record with handle := "c-3", snapshot := .malformed }]

def threeRecordsStore : MemoryStore where
  shapes := Dict.ofPairs (threeRecords.map fun record => (record.handle, record))
  checkpoint := none

theorem corruption_stays_local_threeRecords :
    letI := tabulatedDigest
    ∃ manager : Manager MemoryStore, Manager.newManager threeRecordsStore = (.ok (), manager) ∧
      Hydrated threeRecords manager ∧
      MemoryHoldsRecords manager.store (threeRecords.map hydratedRecord) ∧
      Manager.newManager manager.store = (.ok (), manager) := by
  exact @corruption_stays_local _ tabulatedDigest _ _ _ _ memoryStore_keeps
    ⟨by decide +kernel, .ofPairs threeRecords⟩

end PostgresSync.Shapes
