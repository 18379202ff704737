import PostgresSync.Shapes.WriteThrough

namespace PostgresSync.Shapes

open PostgresSync.Data
open PostgresSync.Storage

/-! What happens to a tombstone in a run with failing saves and with restarts. -/

def handleParts (hash : String) (now : Time) : String × Nat :=
  (String.ofList (hash.toList.take 10), now / 1000)

def handleOf (parts : String × Nat) : String :=
  parts.1 ++ "-" ++ toString parts.2

theorem newHandle_eq (hash : String) (now : Time) :
    Manager.newHandle hash now = handleOf (handleParts hash now) := rfl

theorem handleOf_injective : Function.Injective handleOf := by
  have text : ∀ parts : String × Nat,
      (handleOf parts).toList = parts.1.toList ++ '-' :: Nat.toDigits 10 parts.2 := by
    intro parts
    simp [handleOf, toString, Nat.repr]
  have digits : ∀ n, '-' ∉ Nat.toDigits 10 n := by
    intro n member
    have digit := List.all_eq_true.mp (toDigits_all_isDigit n) '-' member
    exact absurd digit (by decide)
  intro left right same
  have lists := congrArg String.toList same
  rw [text, text] at lists
  obtain ⟨front, back⟩ := append_separator_inj (digits _) (digits _) lists
  have numbers := congrArg parseDigits back
  rw [parseDigits_toDigits, parseDigits_toDigits] at numbers
  exact Prod.ext (String.toList_inj.mp front) (Option.some.inj numbers)

/-! Loading what the manager itself has saved. -/

theorem unmarshalState_marshalState (state : State) :
    (unmarshalState (marshalState state)).isSome = true := by
  have changes : ∀ log : List Message,
      (List.mapM unmarshalChange
        (log.map fun change => RawMessage.encoded change.toPersisted)).isSome = true := by
    intro log
    induction log with
    | nil => rfl
    | cons change rest hypothesis =>
        obtain ⟨decoded, rest⟩ := Option.isSome_iff_exists.mp hypothesis
        simp [List.mapM_cons, unmarshalChange, rest]
  obtain ⟨log, decoded⟩ := Option.isSome_iff_exists.mp (changes state.changes)
  simp [unmarshalState, marshalState, unmarshal, decoded]

def loadedState (shape : PersistedShape) : State :=
  (unmarshalState shape).getD (corruptState shape)

namespace Manager

theorem loadState_own (manager : Manager σ) (state : State) :
    (manager.loadState state).byHandle[state.handle]? = some state := by
  unfold loadState
  cases deleted : state.deleted <;> simp [putState, putHash, addRelationLocked]

@[simp] theorem loadState_store (manager : Manager σ) (state : State) :
    (manager.loadState state).store = manager.store := by
  unfold loadState
  cases deleted : state.deleted <;> rfl

theorem Indexed.loadState {manager : Manager σ} (indexed : manager.Indexed) {state : State}
    (fresh : manager.byHandle[state.handle]? = none) :
    (manager.loadState state).Indexed := by
  have kept : ∀ (handle : String) (old : State), manager.byHandle[handle]? = some old →
      (manager.loadState state).byHandle[handle]? = some old := by
    intro handle old found
    rw [loadState_byHandle]
    · exact found
    · rintro rfl
      rw [fresh] at found
      cases found
  have named : (manager.loadState state).registry.Named State.handle := by
    intro handle old found
    by_cases same : state.handle = handle
    · subst same
      have own : some old = some state := found.symm.trans (manager.loadState_own state)
      rw [Option.some.inj own]
    · exact indexed.named handle old ((loadState_byHandle same).symm.trans found)
  refine ⟨fun hash handle found => ?_, fun key handle => ?_, named⟩
  · by_cases own : state.deleted = false ∧ state.hash = hash
    · obtain ⟨active, rfl⟩ := own
      have renamed : (manager.loadState state).byHash[state.hash]? = some state.handle := by
        simp [Manager.loadState, active, putState, putHash, addRelationLocked]
      obtain rfl : state.handle = handle := Option.some.inj (renamed.symm.trans found)
      exact ⟨state, manager.loadState_own state, active, rfl⟩
    · have unnamed : state.deleted = false → state.hash ≠ hash := fun active same =>
        own ⟨active, same⟩
      obtain ⟨old, held, active, hashed⟩ :=
        indexed.sound hash handle ((loadState_byHash unnamed).symm.trans found)
      exact ⟨old, kept handle old held, active, hashed⟩
  · have before := indexed.listed key handle
    have listed : (manager.loadState state).registry.listed key handle ↔
        manager.registry.listed key handle ∨
          (state.deleted = false ∧ key = state.relationIndex ∧ handle = state.handle) := by
      cases active : state.deleted with
      | true => simp [Manager.loadState, active, registry, putState]
      | false =>
          simp only [Manager.loadState, active, Bool.false_eq_true, if_false, true_and]
          exact mem_addRelationLocked _ state.definition.relation state.handle key handle
    rw [listed, before]
    by_cases same : state.handle = handle
    · subst same
      constructor
      · rintro (⟨old, held, -⟩ | ⟨active, rfl, -⟩)
        · rw [show manager.registry.records state.handle = none from fresh] at held
          cases held
        · exact ⟨state, manager.loadState_own state, active, rfl⟩
      · rintro ⟨old, held, active, rfl⟩
        have own : some old = some state := held.symm.trans (manager.loadState_own state)
        obtain rfl := Option.some.inj own
        exact .inr ⟨active, rfl, rfl⟩
    · have records : (manager.loadState state).registry.records handle =
          manager.registry.records handle := loadState_byHandle same
      have other : ¬handle = state.handle := fun equal => same equal.symm
      rw [records]
      simp [other]

theorem loadPersisted_of_decoding [Store σ] (shapes : List PersistedShape) :
    ∀ manager : Manager σ, (∀ shape ∈ shapes, (unmarshalState shape).isSome = true) →
      manager.loadPersisted shapes =
        (.ok (), (shapes.map loadedState).foldl loadState manager) := by
  induction shapes with
  | nil =>
      intro manager _
      rfl
  | cons shape rest hypothesis =>
      intro manager decode
      obtain ⟨state, decoded⟩ := Option.isSome_iff_exists.mp (decode shape List.mem_cons_self)
      have same : loadedState shape = state := by rw [loadedState, decoded, Option.getD_some]
      simp only [loadPersisted, decoded, List.map_cons, List.foldl_cons, same]
      apply hypothesis
      intro other member
      exact decode other (List.mem_cons_of_mem shape member)

theorem loadPersisted_decoding [Store σ] (shapes : List PersistedShape) :
    ∀ manager : Manager σ, (∀ shape ∈ shapes, (unmarshalState shape).isSome = true) →
      (shapes.map (·.handle)).Nodup →
      (∀ shape ∈ shapes, manager.byHandle[shape.handle]? = none) → manager.Indexed →
      let loaded := (manager.loadPersisted shapes).2
      loaded.Indexed ∧ loaded.store = manager.store ∧
        (∀ shape ∈ shapes, loaded.byHandle[shape.handle]? = unmarshalState shape) ∧
        ∀ handle : String, (∀ shape ∈ shapes, shape.handle ≠ handle) →
          loaded.byHandle[handle]? = manager.byHandle[handle]? := by
  induction shapes with
  | nil =>
      intro manager _ _ _ indexed
      exact ⟨indexed, rfl, by simp, fun _ _ => rfl⟩
  | cons shape rest hypothesis =>
      intro manager decode distinct fresh indexed
      obtain ⟨state, decoded⟩ := Option.isSome_iff_exists.mp (decode shape (by simp))
      obtain ⟨own, others⟩ := List.nodup_cons.mp distinct
      have same : state.handle = shape.handle := (unmarshalState_identity decoded).1
      have apart : ∀ other ∈ rest, shape.handle ≠ other.handle := by
        intro other member equal
        exact own (List.mem_map.mpr ⟨other, member, equal.symm⟩)
      have unloaded : manager.byHandle[state.handle]? = none := by
        rw [same]
        exact fresh shape (by simp)
      have later := hypothesis (manager.loadState state)
        (fun other member => decode other (by simp [member])) others
        (fun other member => by
          rw [loadState_byHandle (same ▸ apart other member)]
          exact fresh other (by simp [member]))
        (indexed.loadState unloaded)
      obtain ⟨kept, store, found, untouched⟩ := later
      simp only [loadPersisted, decoded]
      refine ⟨kept, store.trans (loadState_store manager state), ?_, ?_⟩
      · intro other member
        rcases List.mem_cons.mp member with rfl | member
        · rw [untouched _ fun another known equal => apart another known equal.symm,
            ← same, loadState_own, decoded]
        · exact found other member
      · intro handle absent
        rw [untouched handle fun other member => absent other (by simp [member])]
        exact loadState_byHandle (same ▸ absent shape (by simp))

end Manager

/-! Runs over a store that may refuse saves. -/

/-- A call, or a restart over the records that the store holds. -/
inductive Event where
  | operate (call : Call)
  | restart

namespace Manager

section Events

variable [Digest]

def happen (manager : Manager UnreliableStore) : Event → Manager UnreliableStore
  | .operate call => manager.perform call
  | .restart => (newManager manager.store).2

def creation (manager : Manager UnreliableStore) : Event → Option (String × Nat)
  | .operate call =>
      ((manager.creates call).filter fun state => manager.Accepts state).map fun state =>
        handleParts state.hash call.now
  | .restart => none

def creations : Manager UnreliableStore → List Event → List (String × Nat)
  | _, [] => []
  | manager, event :: rest =>
      (manager.creation event).toList ++ creations (manager.happen event) rest

variable {manager : Manager UnreliableStore}

theorem creates_handle {call : Call} {state : State}
    (creates : manager.creates call = some state) :
    state.handle = newHandle state.hash call.now := by
  obtain ⟨operation, now⟩ := call
  have made : ∀ (definition : Definition) (fill : State → State),
      (∀ blank : State, (fill blank).handle = blank.handle ∧ (fill blank).hash = blank.hash) →
      manager.createdState definition now fill = some state →
        state.handle = newHandle state.hash now := by
    intro definition fill keeps created
    unfold createdState at created
    split at created
    · cases created
    · obtain rfl := Option.some.inj created
      rw [(keeps _).1, (keeps _).2]
      rfl
  cases operation with
  | upsertSnapshot definition snapshot =>
      rw [Manager.creates] at creates
      refine made _ _ ?_ creates
      exact fun _ => ⟨rfl, rfl⟩
  | upsertSnapshotAtOffset definition snapshot currentOffset =>
      rw [Manager.creates] at creates
      refine made _ _ ?_ creates
      exact fun _ => ⟨rfl, rfl⟩
  | lookupOrCreateDefinition definition =>
      rw [Manager.creates] at creates
      refine made _ _ ?_ creates
      exact fun _ => ⟨rfl, rfl⟩
  | _ => cases creates

theorem createdState_of_unnamed {definition : Definition}
    (unnamed : manager.byHash[canonicalHash definition]? = none) (now : Time)
    (fill : State → State) : manager.createdState definition now fill =
      some (fill (manager.newState (canonicalHash definition) now)) := by
  simp only [createdState, unnamed]

theorem takesFreshHandle_of_creates {call : Call}
    (fresh : ∀ state, manager.creates call = some state →
      manager.byHandle[state.handle]? = none) : manager.TakesFreshHandle call := by
  obtain ⟨operation, now⟩ := call
  cases operation with
  | upsertSnapshot definition snapshot =>
      intro unnamed
      rw [creates] at fresh
      exact fresh _ (createdState_of_unnamed unnamed now _)
  | upsertSnapshotAtOffset definition snapshot currentOffset =>
      intro unnamed
      rw [creates] at fresh
      exact fresh _ (createdState_of_unnamed unnamed now _)
  | lookupOrCreateDefinition definition =>
      intro unnamed
      rw [creates] at fresh
      exact fresh _ (createdState_of_unnamed unnamed now _)
  | _ => trivial

end Events

/-- What a run keeps: every record decodes to a shape of its handle, and every handle
comes from a creation. -/
structure Kept (created : List (String × Nat)) (manager : Manager UnreliableStore) :
    Prop where
  indexed : manager.Indexed
  decodes : ∀ (handle : String) (record : PersistedShape),
    manager.store.shapes[handle]? = some record →
      record.handle = handle ∧ (unmarshalState record).isSome = true
  origin : ∀ handle : String,
    (manager.byHandle[handle]?).isSome = true ∨
      (manager.store.shapes[handle]?).isSome = true →
        ∃ parts ∈ created, handleOf parts = handle

theorem Indexed.linked {manager : Manager σ} (indexed : manager.Indexed) :
    manager.Linked where
  named := indexed.named
  known hash handle found := by
    obtain ⟨state, held, -, -⟩ := indexed.sound hash handle found
    exact Option.isSome_iff_exists.mpr ⟨state, held⟩

section Steps

variable [Digest] {manager : Manager UnreliableStore} {write : Write}
  {created : List (String × Nat)}

theorem Linked.known_of_legit (linked : manager.Linked) (legit : write.Legit manager)
    (old : ∀ state, write ≠ .create state) :
    (manager.byHandle[write.handle]?).isSome = true := by
  cases legit with
  | create unnamed handle active unchanged => exact absurd rfl (old _)
  | resnapshot named => exact linked.known _ _ named
  | touch named => exact linked.known _ _ named
  | change active same quiet =>
      exact Option.isSome_iff_exists.mpr ⟨_, (active?_eq_some.mp active).1⟩
  | bury found => exact Option.isSome_iff_exists.mpr ⟨_, found⟩

theorem attempt_outcome (linked : manager.Linked) (legit : write.Legit manager) :
    (manager.store.refusals 0 = true ∧ (manager.attempt write).byHandle = manager.byHandle ∧
        (manager.attempt write).store.shapes = manager.store.shapes ∧
        (manager.attempt write).registry = manager.registry) ∨
      (manager.store.refusals 0 = false ∧ ∀ handle : String,
        ((manager.attempt write).byHandle[handle]? =
          if write.handle = handle then some write.state else manager.byHandle[handle]?) ∧
        (manager.attempt write).store.shapes[handle]? =
          if write.handle = handle then some (marshalState write.state)
          else manager.store.shapes[handle]?) := by
  unfold attempt
  cases refused : manager.store.refusals 0 with
  | true =>
      rw [if_neg (by simp [accepts_iff, refused])]
      exact .inl ⟨rfl, rfl, by rw [offered_shapes, if_pos refused], rfl⟩
  | false =>
      rw [if_pos ((accepts_iff _).mpr refused)]
      refine .inr ⟨rfl, fun handle => ⟨install_byHandle _ write handle, ?_⟩⟩
      rw [install_store, offered_shapes, refused, if_neg Bool.false_ne_true,
        Dict.getElem?_insert, linked.handle_eq legit]

omit [Digest] in
theorem invalidateByRelation_records (linked : manager.Linked) (relation : Relation)
    (now : Time) (handle : String) :
    (manager.invalidateByRelation relation now).2.store.shapes[handle]? =
        manager.store.shapes[handle]? ∨
      ∃ state, manager.active? handle = some state ∧
        (manager.invalidateByRelation relation now).2.store.shapes[handle]? =
          some (marshalState (state.tombstone now)) := by
  have distinct := manager.listedTombstones_nodup relation now
  have named := linked.tombstones now (manager.listedHandles relation)
  -- whichever part of the tombstones has been saved
  have saved : ∀ n, ∀ shapes : Dict PersistedShape, shapes = savedRecords manager.store.shapes
      ((manager.tombstones now (manager.listedHandles relation)).take n) →
        shapes[handle]? = manager.store.shapes[handle]? ∨
          ∃ state, manager.active? handle = some state ∧
            shapes[handle]? = some (marshalState (state.tombstone now)) := by
    rintro n shapes rfl
    have part := (manager.tombstones now (manager.listedHandles relation)).take_sublist n
    rw [getElem?_savedRecords (distinct.sublist (part.map _))
      (fun entry member => named entry (part.subset member))]
    cases looked : ((manager.tombstones now (manager.listedHandles relation)).take n).find?
        fun entry => entry.1 = handle with
    | none => exact .inl rfl
    | some entry =>
        have member := part.subset (List.mem_of_find?_eq_some looked)
        obtain ⟨-, state, found, active, same⟩ := mem_tombstones.mp member
        have key : entry.1 = handle := by simpa using List.find?_some looked
        subst key
        exact .inr ⟨state, active?_eq_some.mpr ⟨found, active⟩, by simp [same]⟩
  have loop := persistTombstones_shapes now (manager.listedHandles relation) manager
  dsimp only at loop
  rcases manager.invalidateByRelation_cases relation now with
    ⟨-, nothing⟩ | ⟨store, ⟨error, outcome, failed⟩ | ⟨outcome, succeeded⟩⟩
  · rw [nothing]
    exact .inl rfl
  · rw [outcome] at loop
    rw [failed]
    rcases loop with ⟨-, impossible, -⟩ | ⟨n, -, -, -, -, shapes⟩
    · cases impossible
    · exact saved n _ shapes
  · rw [outcome] at loop
    rw [succeeded]
    dsimp only
    rw [installTombstones_store]
    rcases loop with ⟨-, -, shapes⟩ | ⟨n, -, -, -, -, shapes⟩
    · apply saved (manager.tombstones now (manager.listedHandles relation)).length
      rw [List.take_length]
      exact shapes
    · exact saved n _ shapes

omit [Digest] in
theorem Kept.mono {larger : List (String × Nat)} (kept : manager.Kept created)
    (more : created ⊆ larger) : manager.Kept larger where
  indexed := kept.indexed
  decodes := kept.decodes
  origin handle known := by
    obtain ⟨parts, member, same⟩ := kept.origin handle known
    exact ⟨parts, more member, same⟩

theorem Kept.attempt (kept : manager.Kept created) (legit : write.Legit manager)
    (indexed : (manager.attempt write).Indexed)
    (origin : ∀ state, write = .create state → manager.Accepts state →
      ∃ parts ∈ created, handleOf parts = state.handle) :
    (manager.attempt write).Kept created := by
  have linked := kept.indexed.linked
  rcases attempt_outcome linked legit with ⟨-, byHandle, shapes, -⟩ | ⟨taken, outcome⟩
  · refine ⟨indexed, ?_, ?_⟩
    · rw [shapes]
      exact kept.decodes
    · rw [byHandle, shapes]
      exact kept.origin
  · -- the handle that is written has an origin, and so have the others
    have known : ∃ parts ∈ created, handleOf parts = write.handle := by
      by_cases creates : ∃ state, write = .create state
      · obtain ⟨state, rfl⟩ := creates
        exact origin state rfl ((accepts_iff _).mpr taken)
      · exact kept.origin _ (.inl (linked.known_of_legit legit fun state same =>
          creates ⟨state, same⟩))
    refine ⟨indexed, fun handle record found => ?_, fun handle held => ?_⟩
    · rw [(outcome handle).2] at found
      split at found
      · next same =>
          obtain rfl := Option.some.inj found
          exact ⟨(linked.handle_eq legit).trans same, unmarshalState_marshalState _⟩
      · exact kept.decodes handle record found
    · by_cases same : write.handle = handle
      · exact same ▸ known
      · rw [(outcome handle).1, (outcome handle).2, if_neg same, if_neg same] at held
        exact kept.origin handle held

variable {state : State}

omit [Digest] in
theorem delete_eq_attempt {handle : String} (found : manager.byHandle[handle]? = some state)
    (now : Time) :
    (manager.delete handle now).2 = manager.attempt (.bury handle state now) := by
  simp only [delete, found]
  exact persistThen_attempt _ rfl fun _ => ⟨_, rfl⟩

theorem Kept.bury (kept : manager.Kept created) {handle : String}
    (found : manager.byHandle[handle]? = some state) (now : Time) :
    (manager.attempt (.bury handle state now)).Kept created := by
  apply kept.attempt (.bury found)
  · rw [← delete_eq_attempt found now]
    have performed : (manager.perform ⟨.delete handle, now⟩).Indexed :=
      kept.indexed.perform trivial
    exact performed
  · nofun

theorem Kept.buries {last : Manager UnreliableStore} (buries : manager.Buries last)
    (kept : manager.Kept created) : last.Kept created := by
  induction buries with
  | done manager => exact kept
  | next active rest hypothesis =>
      exact hypothesis (kept.bury (active?_eq_some.mp active).1 _)

theorem Kept.invalidateByRelation (kept : manager.Kept created) (relation : Relation)
    (now : Time) : (manager.invalidateByRelation relation now).2.Kept created := by
  have linked := kept.indexed.linked
  have known : ∀ handle state, manager.active? handle = some state →
      ∃ parts ∈ created, handleOf parts = handle := by
    intro handle state active
    exact kept.origin handle (.inl (by simp [(active?_eq_some.mp active).1]))
  refine ⟨?_, fun handle record found => ?_, fun handle held => ?_⟩
  · have performed : (manager.perform ⟨.invalidateByRelation relation, now⟩).Indexed :=
      kept.indexed.perform trivial
    exact performed
  · rcases invalidateByRelation_records linked relation now handle with
      same | ⟨state, active, same⟩
    · exact kept.decodes handle record (same.symm.trans found)
    · obtain rfl := Option.some.inj (same.symm.trans found)
      have named := linked.named handle state (active?_eq_some.mp active).1
      exact ⟨named, unmarshalState_marshalState _⟩
  · rcases held with held | held
    · apply kept.origin handle
      left
      rcases invalidateByRelation_outcome kept.indexed.listed relation now with
        ⟨_, -, after⟩ | ⟨_, -, after⟩
      · rw [after] at held
        simpa using held
      · rw [after] at held
        exact held
    · rcases invalidateByRelation_records linked relation now handle with
        same | ⟨state, active, -⟩
      · rw [same] at held
        exact kept.origin handle (.inr held)
      · exact known handle state active

theorem Kept.unused (kept : manager.Kept created) {call : Call}
    (fresh : ∀ parts, manager.creation (.operate call) = some parts → parts ∉ created)
    (creates : manager.creates call = some state)
    (accepted : manager.Accepts state) :
    manager.creation (.operate call) = some (handleParts state.hash call.now) ∧
      manager.byHandle[state.handle]? = none := by
  have made : manager.creation (.operate call) = some (handleParts state.hash call.now) := by
    simp [creation, creates, accepted]
  refine ⟨made, Option.not_isSome_iff_eq_none.mp fun held => ?_⟩
  obtain ⟨parts, member, same⟩ := kept.origin state.handle (.inl held)
  rw [creates_handle creates, newHandle_eq] at same
  exact fresh _ made (handleOf_injective same ▸ member)

theorem Kept.operate (kept : manager.Kept created) (call : Call)
    (fresh : ∀ parts, manager.creation (.operate call) = some parts → parts ∉ created) :
    (manager.perform call).Kept ((manager.creation (.operate call)).toList ++ created) := by
  have more : created ⊆ (manager.creation (.operate call)).toList ++ created :=
    List.subset_append_right _ _
  rcases manager.perform_cases call with
    ⟨-, same⟩ | ⟨write, legit, creates, same⟩ | ⟨-, buries⟩ | ⟨relation, -, same⟩
  · rw [same]
    exact kept.mono more
  · rw [same]
    apply (kept.mono more).attempt legit
    · rcases attempt_outcome kept.indexed.linked legit with
        ⟨-, -, -, registry⟩ | ⟨taken, -⟩
      · obtain ⟨sound, listed, named⟩ := kept.indexed
        exact ⟨registry ▸ sound, registry ▸ listed, registry ▸ named⟩
      · rw [← same]
        apply kept.indexed.perform
        apply takesFreshHandle_of_creates
        intro state made
        exact (kept.unused fresh made ((accepts_iff _).mpr taken)).2
    · intro state writes accepted
      have made := (creates state).mp writes
      refine ⟨handleParts state.hash call.now, ?_, ?_⟩
      · simp [(kept.unused fresh made accepted).1]
      · rw [← newHandle_eq, creates_handle made]
  · exact (Kept.buries buries kept).mono more
  · rw [same]
    exact (kept.invalidateByRelation relation call.now).mono more

omit [Digest] in
theorem Kept.restart (kept : manager.Kept created) :
    (newManager manager.store).2.Kept created ∧
      (newManager manager.store).2.store = manager.store ∧
      ∀ handle : String, (newManager manager.store).2.byHandle[handle]? =
        manager.store.shapes[handle]?.bind unmarshalState := by
  have distinct : (manager.store.shapes.values.map (·.handle)).Nodup := by
    have handles : manager.store.shapes.values.map (·.handle) =
        manager.store.shapes.toList.map (·.1) := by
      rw [Dict.values_eq, List.map_map]
      refine List.map_congr_left fun entry member => ?_
      have found : manager.store.shapes[entry.1]? = some entry.2 :=
        Std.ExtTreeMap.mem_toList_iff_getElem?_eq_some.mp member
      exact (kept.decodes entry.1 entry.2 found).1
    rw [handles, List.Nodup, List.pairwise_map]
    exact Std.ExtTreeMap.distinct_keys_toList.imp fun different equal =>
      different (by simp [equal])
  have decode : ∀ record ∈ manager.store.shapes.values,
      manager.store.shapes[record.handle]? = some record ∧
        (unmarshalState record).isSome = true := by
    intro record member
    obtain ⟨handle, found⟩ := Dict.mem_values.mp member
    obtain ⟨named, decodes⟩ := kept.decodes handle record found
    exact ⟨named ▸ found, decodes⟩
  have loaded : (newManager manager.store).2 =
      (loadPersisted { store := manager.store } manager.store.shapes.values).2 := rfl
  obtain ⟨indexed, store, found, others⟩ := loadPersisted_decoding
    manager.store.shapes.values { store := manager.store }
    (fun record member => (decode record member).2) distinct (by simp) (.empty _)
  have byHandle : ∀ handle : String, (newManager manager.store).2.byHandle[handle]? =
      manager.store.shapes[handle]?.bind unmarshalState := by
    intro handle
    rw [loaded]
    cases held : manager.store.shapes[handle]? with
    | none =>
        rw [others handle fun record member same => ?_]
        · simp
        · rw [← same, (decode record member).1] at held
          cases held
    | some record =>
        have named := (kept.decodes handle record held).1
        subst named
        exact found record (Dict.mem_values.mpr ⟨_, held⟩)
  refine ⟨⟨loaded ▸ indexed, ?_, fun handle held => ?_⟩, store, byHandle⟩
  · rw [loaded, store]
    exact kept.decodes
  · apply kept.origin handle
    right
    rcases held with held | held
    · rw [byHandle] at held
      obtain ⟨state, decoded⟩ := Option.isSome_iff_exists.mp held
      obtain ⟨record, stored, -⟩ := Option.bind_eq_some_iff.mp decoded
      exact Option.isSome_iff_exists.mpr ⟨record, stored⟩
    · rw [loaded, store] at held
      exact held

theorem Kept.happen (kept : manager.Kept created) (event : Event)
    (fresh : ∀ parts, manager.creation event = some parts → parts ∉ created) :
    (manager.happen event).Kept ((manager.creation event).toList ++ created) := by
  cases event with
  | operate call => exact kept.operate call fresh
  | restart => exact kept.restart.1

end Steps

/-! A tombstone in the map and in the store. -/

structure Dead (manager : Manager UnreliableStore) (handle : String) : Prop where
  held : ∃ state, manager.byHandle[handle]? = some state ∧ state.deleted = true
  stored : ∃ record, manager.store.shapes[handle]? = some record ∧ record.deleted = true

section Permanence

variable {manager : Manager UnreliableStore} {handle : String}
  {created : List (String × Nat)}

theorem Dead.not_active (dead : manager.Dead handle) {state : State} :
    manager.active? handle ≠ some state := by
  intro active
  obtain ⟨found, alive⟩ := active?_eq_some.mp active
  obtain ⟨old, held, deleted⟩ := dead.held
  obtain rfl := Option.some.inj (held.symm.trans found)
  rw [State.Active, deleted] at alive
  cases alive

theorem Dead.not_named (dead : manager.Dead handle) (indexed : manager.Indexed)
    {hash : String} : manager.byHash[hash]? ≠ some handle := by
  intro named
  obtain ⟨state, found, active, -⟩ := indexed.sound hash handle named
  exact dead.not_active (active?_eq_some.mpr ⟨found, active⟩)

variable [Digest]

theorem Dead.attempt (dead : manager.Dead handle) (indexed : manager.Indexed) {write : Write}
    (legit : write.Legit manager)
    (other : ∀ state, write = .create state → manager.Accepts state →
      state.handle ≠ handle) : (manager.attempt write).Dead handle := by
  rcases attempt_outcome indexed.linked legit with
    ⟨-, byHandle, shapes, -⟩ | ⟨taken, outcome⟩
  · exact ⟨byHandle ▸ dead.held, shapes ▸ dead.stored⟩
  · obtain ⟨held, stored⟩ := outcome handle
    by_cases same : write.handle = handle
    · rw [if_pos same] at held stored
      -- the only write that can reach a tombstone buries it again
      cases legit with
      | create unnamed named active unchanged =>
          exact absurd same (other _ rfl ((accepts_iff _).mpr taken))
      | resnapshot named =>
          obtain rfl : _ = handle := same
          exact absurd named (dead.not_named indexed)
      | touch named =>
          obtain rfl : _ = handle := same
          exact absurd named (dead.not_named indexed)
      | change active shape quiet =>
          obtain rfl : _ = handle := same
          exact absurd active dead.not_active
      | bury found => exact ⟨⟨_, held, rfl⟩, ⟨_, stored, rfl⟩⟩
    · rw [if_neg same] at held stored
      exact ⟨held ▸ dead.held, stored ▸ dead.stored⟩

theorem Dead.bury (dead : manager.Dead handle) (indexed : manager.Indexed) {first : String}
    {state : State} (found : manager.byHandle[first]? = some state) (now : Time) :
    (manager.attempt (.bury first state now)).Dead handle := by
  apply dead.attempt indexed (.bury found)
  intro created same
  cases same

theorem Dead.buries {last : Manager UnreliableStore} (buries : manager.Buries last)
    (kept : manager.Kept created) (dead : manager.Dead handle) : last.Dead handle := by
  induction buries with
  | done manager => exact dead
  | next active rest hypothesis =>
      have found := (active?_eq_some.mp active).1
      exact hypothesis (kept.bury found _) (dead.bury kept.indexed found _)

omit [Digest] in
theorem Dead.invalidateByRelation (dead : manager.Dead handle) (indexed : manager.Indexed)
    (relation : Relation) (now : Time) :
    (manager.invalidateByRelation relation now).2.Dead handle := by
  obtain ⟨state, held, deleted⟩ := dead.held
  constructor
  · refine ⟨state, ?_, deleted⟩
    rcases invalidateByRelation_outcome indexed.listed relation now with
      ⟨_, -, after⟩ | ⟨_, -, after⟩
    · simp [after, held, invalidatedState, deleted]
    · rw [after]
      exact held
  · rcases invalidateByRelation_records indexed.linked relation now handle with
      same | ⟨state, active, -⟩
    · rw [same]
      exact dead.stored
    · exact absurd active dead.not_active

theorem Dead.happen (dead : manager.Dead handle) (kept : manager.Kept created) (event : Event)
    (fresh : ∀ parts, manager.creation event = some parts → parts ∉ created) :
    (manager.happen event).Dead handle := by
  cases event with
  | operate call =>
      rw [Manager.happen]
      rcases manager.perform_cases call with
        ⟨-, same⟩ | ⟨write, legit, creates, same⟩ | ⟨-, buries⟩ | ⟨relation, -, same⟩
      · rw [same]
        exact dead
      · rw [same]
        apply dead.attempt kept.indexed legit
        rintro state writes accepted rfl
        obtain ⟨-, unused⟩ := kept.unused fresh ((creates state).mp writes) accepted
        obtain ⟨old, held, -⟩ := dead.held
        rw [unused] at held
        cases held
      · exact Dead.buries buries kept dead
      · rw [same]
        exact dead.invalidateByRelation kept.indexed relation call.now
  | restart =>
      obtain ⟨after, store, byHandle⟩ := kept.restart
      obtain ⟨record, stored, deleted⟩ := dead.stored
      rw [Manager.happen]
      constructor
      · obtain ⟨state, decoded⟩ :=
          Option.isSome_iff_exists.mp (kept.decodes handle record stored).2
        refine ⟨state, ?_, (unmarshalState_identity decoded).2.2.trans deleted⟩
        rw [byHandle, stored]
        exact decoded
      · rw [store]
        exact dead.stored

theorem creations_append (before after : List Event) :
    ∀ manager : Manager UnreliableStore, manager.creations (before ++ after) =
      manager.creations before ++ (before.foldl Manager.happen manager).creations after := by
  induction before with
  | nil =>
      intro manager
      rfl
  | cons event rest hypothesis =>
      intro manager
      rw [List.cons_append, creations, creations, hypothesis, List.append_assoc]
      rfl

theorem Kept.run (events : List Event) :
    ∀ (manager : Manager UnreliableStore) (created : List (String × Nat)),
      manager.Kept created → (created ++ manager.creations events).Nodup →
      (events.foldl Manager.happen manager).Kept (created ++ manager.creations events) ∧
        ∀ handle, manager.Dead handle →
          (events.foldl Manager.happen manager).Dead handle := by
  induction events with
  | nil =>
      intro manager created kept _
      exact ⟨kept.mono (by simp), fun _ dead => dead⟩
  | cons event rest hypothesis =>
      intro manager created kept distinct
      rw [creations, ← List.append_assoc] at distinct ⊢
      have fresh : ∀ parts, manager.creation event = some parts → parts ∉ created := by
        intro parts creates member
        have first := (List.nodup_append'.mp distinct).1
        rw [creates] at first
        exact (List.nodup_append'.mp first).2.2 member (by simp)
      have step : (manager.happen event).Kept
          (created ++ (manager.creation event).toList) :=
        (kept.happen event fresh).mono (by simp)
      obtain ⟨later, permanent⟩ := hypothesis _ _ step distinct
      exact ⟨later, fun handle dead => permanent handle (dead.happen kept event fresh)⟩

end Permanence

/-! The operations that make tombstones. -/

/-- An operation reports that it has put a tombstone under the handle.
`InvalidateAll` lists those it has made even when it fails at a later shape. -/
def Tombstones (manager : Manager UnreliableStore) (call : Call) (handle : String) : Prop :=
  match call.operation with
  | .delete target => target = handle ∧ (manager.delete target call.now).1 = .ok true
  | .invalidateByRelation relation =>
      ∃ handles, (manager.invalidateByRelation relation call.now).1 = .ok handles ∧
        handle ∈ handles
  | .invalidateAll => handle ∈ (manager.invalidateAll call.now).1.1
  | _ => False

section Making

variable {manager : Manager UnreliableStore} {handle : String}
  {created : List (String × Nat)}

variable {now : Time}

theorem Dead.of_bury [Digest] (linked : manager.Linked) {state : State}
    (found : manager.byHandle[handle]? = some state)
    (accepted : manager.Accepts (state.tombstone now)) :
    (manager.attempt (.bury handle state now)).Dead handle := by
  rcases attempt_outcome linked (.bury found) with ⟨refused, -⟩ | ⟨-, outcome⟩
  · rw [(accepts_iff _).mp accepted] at refused
    cases refused
  · obtain ⟨held, stored⟩ := outcome handle
    exact ⟨⟨_, held.trans (if_pos rfl), rfl⟩, ⟨_, stored.trans (if_pos rfl), rfl⟩⟩

theorem Dead.of_delete [Digest] (linked : manager.Linked)
    (deleted : (manager.delete handle now).1 = .ok true) :
    (manager.delete handle now).2.Dead handle := by
  cases found : manager.byHandle[handle]? with
  | none =>
      rw [delete, found] at deleted
      cases Except.ok.inj deleted
  | some state =>
      rw [delete_eq_attempt found]
      apply Dead.of_bury linked found
      by_contra refused
      rw [delete, found] at deleted
      dsimp only at deleted
      obtain ⟨error, failed⟩ := persistThen_of_not_accepts refused
      rw [failed] at deleted
      cases deleted

theorem Dead.of_invalidateByRelation (linked : manager.Linked) {relation : Relation}
    {handles : List String}
    (succeeded : (manager.invalidateByRelation relation now).1 = .ok handles)
    (member : handle ∈ handles) :
    (manager.invalidateByRelation relation now).2.Dead handle := by
  have distinct := manager.listedTombstones_nodup relation now
  have named := linked.tombstones now (manager.listedHandles relation)
  have loop := persistTombstones_shapes now (manager.listedHandles relation) manager
  dsimp only at loop
  rcases manager.invalidateByRelation_cases relation now with
    ⟨-, outcome⟩ | ⟨store, ⟨error, -, outcome⟩ | ⟨saved, outcome⟩⟩
  · rw [outcome] at succeeded
    obtain rfl := Except.ok.inj succeeded
    cases member
  · rw [outcome] at succeeded
    cases succeeded
  · rw [outcome] at succeeded ⊢
    rw [saved] at loop
    obtain rfl := Except.ok.inj succeeded
    obtain ⟨entry, listed, rfl⟩ := List.mem_map.mp member
    obtain ⟨-, state, -, -, same⟩ := mem_tombstones.mp listed
    have found : (manager.tombstones now (manager.listedHandles relation)).find?
        (fun other => other.1 = entry.1) = some entry := by
      cases looked : (manager.tombstones now (manager.listedHandles relation)).find?
          fun other => other.1 = entry.1 with
      | none =>
          have absent := List.find?_eq_none.mp looked entry listed
          simp at absent
      | some other =>
          have key : other.1 = entry.1 := by simpa using List.find?_some looked
          rw [List.inj_on_of_nodup_map distinct (List.mem_of_find?_eq_some looked) listed key]
    constructor
    · refine ⟨entry.2, ?_, by rw [same]; rfl⟩
      refine (installTombstones_byHandle distinct _ entry.1).trans ?_
      simp [found]
    · refine ⟨marshalState entry.2, ?_, by rw [same]; rfl⟩
      dsimp only
      rw [installTombstones_store]
      rcases loop with ⟨-, -, shapes⟩ | ⟨-, -, -, -, ⟨error, impossible⟩, -⟩
      · dsimp only at shapes
        rw [shapes, getElem?_savedRecords distinct named, found]
        rfl
      · cases impossible

theorem Dead.of_invalidateAllFrom [Digest] (handles : List String) :
    ∀ (manager : Manager UnreliableStore) (invalidated : List String),
      manager.Kept created → (∀ handle ∈ invalidated, manager.Dead handle) →
      ∀ handle ∈ (manager.invalidateAllFrom now invalidated handles).1.1,
        (manager.invalidateAllFrom now invalidated handles).2.Dead handle := by
  induction handles with
  | nil =>
      intro manager invalidated _ dead
      exact dead
  | cons first rest hypothesis =>
      intro manager invalidated kept dead
      cases active : manager.active? first with
      | none =>
          rw [invalidateAllFrom, active]
          exact hypothesis manager invalidated kept dead
      | some state =>
          have found := (active?_eq_some.mp active).1
          have others : ∀ handle ∈ invalidated,
              (manager.attempt (.bury first state now)).Dead handle := by
            intro handle member
            exact (dead handle member).bury kept.indexed found now
          by_cases accepted : manager.Accepts (state.tombstone now)
          · rw [invalidateAllFrom_of_accepts active accepted]
            apply hypothesis _ _ (kept.bury found now)
            intro handle member
            rcases List.mem_append.mp member with earlier | last
            · exact others handle earlier
            · obtain rfl := List.mem_singleton.mp last
              exact Dead.of_bury kept.indexed.linked found accepted
          · obtain ⟨error, stopped⟩ :=
              invalidateAllFrom_of_not_accepts active accepted invalidated rest
            rw [stopped]
            exact others

theorem Tombstones.dead [Digest] {call : Call} (tombstones : manager.Tombstones call handle)
    (kept : manager.Kept created) : (manager.perform call).Dead handle := by
  obtain ⟨operation, now⟩ := call
  cases operation with
  | delete target =>
      obtain ⟨rfl, deleted⟩ := tombstones
      exact Dead.of_delete kept.indexed.linked deleted
  | invalidateByRelation relation =>
      obtain ⟨handles, succeeded, member⟩ := tombstones
      exact Dead.of_invalidateByRelation kept.indexed.linked succeeded member
  | invalidateAll =>
      exact Dead.of_invalidateAllFrom _ manager [] kept (by simp) handle tombstones
  | _ => exact tombstones.elim

end Making

/-! What a client sees of a tombstone. -/

structure Gone (manager : Manager σ) [Store σ] [Digest] (handle : String) : Prop where
  read : ∀ offset, manager.read handle offset = .error .shapeDeleted
  lookup : manager.lookupByHandle handle = none
  append : ∀ messages now, (manager.append handle messages now).1 = .error .shapeDeleted
  refresh : ∀ snapshot metadata now,
    (manager.refreshWithMetadata handle snapshot metadata now).1 = .error .shapeDeleted
  refreshKeys : ∀ snapshot keyRows metadata now,
    (manager.refreshKeysWithMetadata handle snapshot keyRows metadata now).1 =
      .error .shapeDeleted
  unfound : ∀ definition state, manager.lookupByDefinition definition = some state →
    state.handle ≠ handle

theorem Dead.gone [Digest] {manager : Manager UnreliableStore} {handle : String}
    (dead : manager.Dead handle) (indexed : manager.Indexed) : manager.Gone handle := by
  obtain ⟨state, held, deleted⟩ := dead.held
  have required : manager.requireActive handle = .error .shapeDeleted := by
    simp [requireActive, held, deleted]
  constructor
  · intro offset
    simp [read, readLocked, held, deleted]
  · simp [lookupByHandle, active?, held, deleted]
  · intro messages now
    rw [append, required]
  · intro snapshot metadata now
    rw [refreshWithMetadata, required]
  · intro snapshot keyRows metadata now
    rw [refreshKeysWithMetadata, required]
  · rintro definition found looked rfl
    obtain ⟨named, -, active⟩ := Option.bind_eq_some_iff.mp looked
    rw [indexed.linked.named named found (active?_eq_some.mp active).1] at dead
    exact dead.not_active active

def serves [Store σ] [Digest] (manager : Manager σ) (call : Call) : Option State :=
  match call.operation with
  | .upsertSnapshot definition snapshot =>
      (manager.upsertSnapshot definition snapshot call.now).1.toOption
  | .upsertSnapshotAtOffset definition snapshot currentOffset =>
      (manager.upsertSnapshotAtOffset definition snapshot currentOffset call.now).1.toOption
  | .lookupOrCreateDefinition definition =>
      (manager.lookupOrCreateDefinition definition call.now).1.toOption
  | _ => none

section Serving

variable [Digest] {manager : Manager UnreliableStore}

variable {state : State}

theorem upsertSnapshotAtOffset_serves {definition : Definition} {snapshot : SnapshotResult}
    {currentOffset : String} {now : Time}
    (served : (manager.upsertSnapshotAtOffset definition snapshot currentOffset
      now).1.toOption = some state) :
    ∃ handle : String, (manager.upsertSnapshotAtOffset definition snapshot currentOffset
      now).2.byHandle[handle]? = some state ∧ state.deleted = false := by
  by_cases accepted : manager.Accepts
      (manager.upsertState definition snapshot currentOffset now)
  · obtain ⟨result, after⟩ := upsertSnapshotAtOffset_of_accepts _ _ _ _ _ accepted
    rw [result] at served
    obtain rfl := Option.some.inj served
    refine ⟨_, (after _).trans (if_pos rfl), ?_⟩
    obtain ⟨base, same⟩ := manager.upsertState_eq definition snapshot currentOffset now
    rw [same]
    rfl
  · obtain ⟨error, failed⟩ := upsertSnapshotAtOffset_of_not_accepts _ _ _ _ _ accepted
    rw [failed] at served
    cases served

theorem lookupOrCreateDefinition_serves (indexed : manager.Indexed) {definition : Definition}
    {now : Time}
    (served : (manager.lookupOrCreateDefinition definition now).1.toOption = some state) :
    ∃ handle : String, (manager.lookupOrCreateDefinition definition
      now).2.byHandle[handle]? = some state ∧ state.deleted = false := by
  unfold lookupOrCreateDefinition at served ⊢
  dsimp only at served ⊢
  split at served
  · next handle named =>
      obtain ⟨old, found, active, -⟩ := indexed.sound _ handle named
      rcases manager.persistThen_cases { manager.stateAt handle with lastAccess := now }
          (fun next => (.ok { manager.stateAt handle with lastAccess := now },
            next.putState handle { manager.stateAt handle with lastAccess := now }))
        with run | ⟨error, run⟩
      · rw [run] at served ⊢
        obtain rfl := Option.some.inj served
        refine ⟨handle, by simp, ?_⟩
        rw [stateAt_of_records found]
        exact active
      · rw [run] at served
        cases served
  · let made : State := { manager.newState (canonicalHash definition) now with
      definition := definition
      currentOffset := initialOffset
      lastAccess := now }
    rcases manager.persistThen_cases made (fun next => (.ok made, next.register made))
      with run | ⟨error, run⟩
    · rw [run] at served ⊢
      obtain rfl := Option.some.inj served
      exact ⟨made.handle, (register_byHandle _ made _).trans (if_pos rfl), rfl⟩
    · rw [run] at served
      cases served

theorem serves_installed (indexed : manager.Indexed) {call : Call}
    (served : manager.serves call = some state) :
    ∃ handle : String, (manager.perform call).byHandle[handle]? = some state ∧
      state.deleted = false := by
  obtain ⟨operation, now⟩ := call
  cases operation with
  | upsertSnapshot definition snapshot => exact upsertSnapshotAtOffset_serves served
  | upsertSnapshotAtOffset definition snapshot currentOffset =>
      exact upsertSnapshotAtOffset_serves served
  | lookupOrCreateDefinition definition =>
      exact lookupOrCreateDefinition_serves indexed served
  | _ => cases served

end Serving

theorem Kept.empty (refusals : Nat → Bool) :
    Kept [] ({ store := { refusals := refusals } } : Manager UnreliableStore) where
  indexed := .empty _
  decodes := by simp
  origin := by simp

end Manager

/-- Over a store that may refuse any save, and with restarts anywhere: once an
operation has reported a tombstone, the shape is gone for good, and no definition is
served under its handle. -/
theorem tombstones_are_permanent [Digest] (refusals : Nat → Bool)
    (before after : List Event) (call : Call) (handle : String)
    (distinct : (Manager.creations { store := { refusals := refusals } }
      (before ++ .operate call :: after)).Nodup)
    (tombstones : (before.foldl Manager.happen
      { store := { refusals := refusals } }).Tombstones call handle) :
    let reached := (before ++ .operate call :: after).foldl Manager.happen
      { store := { refusals := refusals } }
    reached.Gone handle ∧
      ∀ next state,
        (Manager.creations { store := { refusals := refusals } }
          (before ++ .operate call :: after ++ [.operate next])).Nodup →
        reached.serves next = some state → state.handle ≠ handle := by
  intro reached
  let start : Manager UnreliableStore := { store := { refusals := refusals } }
  have whole : before ++ .operate call :: after = (before ++ [.operate call]) ++ after := by
    simp
  rw [whole, Manager.creations_append] at distinct
  have first := (List.nodup_append'.mp distinct).1
  -- the tombstone is made by the call, and stays through the rest of the run
  have kept : (before.foldl Manager.happen start).Kept (start.creations before) := by
    refine ((Manager.Kept.empty refusals).run before start [] ?_).1
    rw [Manager.creations_append] at first
    exact (List.nodup_append'.mp first).1
  have dead : ((before ++ [Event.operate call]).foldl Manager.happen start).Dead handle := by
    rw [List.foldl_append]
    exact tombstones.dead kept
  obtain ⟨made, -⟩ := (Manager.Kept.empty refusals).run
    (before ++ [Event.operate call]) start [] first
  obtain ⟨later, permanent⟩ := made.run after _ _ distinct
  have final : reached.Kept (start.creations (before ++ .operate call :: after)) ∧
      reached.Dead handle := by
    have same : reached = after.foldl Manager.happen
        ((before ++ [Event.operate call]).foldl Manager.happen start) := by
      rw [← List.foldl_append, ← whole]
    rw [same, whole, Manager.creations_append]
    exact ⟨later, permanent handle dead⟩
  obtain ⟨still, gone⟩ := final
  refine ⟨gone.gone still.indexed, ?_⟩
  rintro next state fresh served rfl
  rw [Manager.creations_append] at fresh
  obtain ⟨after, permanent⟩ := still.run [.operate next] reached _ fresh
  obtain ⟨found, installed, active⟩ := Manager.serves_installed still.indexed served
  have named : state.handle = found := after.indexed.linked.named found state installed
  subst named
  exact (permanent _ gone).not_active
    (Manager.active?_eq_some.mpr ⟨installed, active⟩)

def upsertItems (now : Time) : Event :=
  .operate ⟨.upsertSnapshot itemsDefinition ⟨itemsSchema, [itemRow "1" "one"], none⟩, now⟩

theorem tombstones_are_permanent_restart :
    letI := tabulatedDigest
    ([upsertItems 1000, .operate ⟨.delete "fa19db76c4-1", 2000⟩, .restart,
      upsertItems 3000].foldl Manager.happen
        { store := { refusals := fun _ => false } }).Gone "fa19db76c4-1" :=
  (@tombstones_are_permanent tabulatedDigest (fun _ => false)
    [upsertItems 1000] [.restart, upsertItems 3000] ⟨.delete "fa19db76c4-1", 2000⟩
    "fa19db76c4-1" (by decide +kernel) ⟨rfl, by decide +kernel⟩).1

end PostgresSync.Shapes
