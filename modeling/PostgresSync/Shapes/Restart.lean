import PostgresSync.Shapes.LogOrder
import PostgresSync.Shapes.Tombstones
import PostgresSync.Storage.Encoding

namespace PostgresSync.Shapes

open PostgresSync.Data
open PostgresSync.Storage

/-! What a restart over a store that keeps every record makes of the shapes. -/

/-! The headers that snapshots and refreshes write come back from their JSON. -/

def ExactHeaders (headers : Headers) : Prop :=
  ∀ (name : String) (value : HeaderValue), headers[name]? = some value → value.toWire.Exact

theorem Message.exact_iff {message : Message} : message.Exact ↔ ExactHeaders message.headers := by
  constructor
  · intro exact name value found
    apply exact name
    simp [Message.toWire, Std.ExtTreeMap.getElem?_map, found]
  · intro exact name wire found
    obtain ⟨value, held, rfl⟩ : ∃ value, message.headers[name]? = some value ∧
        value.toWire = wire := by
      simpa [Message.toWire, Std.ExtTreeMap.getElem?_map] using found
    exact exact name value held

theorem ExactHeaders.insert {headers : Headers} (exact : ExactHeaders headers) (name : String)
    {value : HeaderValue} (own : value.toWire.Exact) :
    ExactHeaders (headers.insert name value) := by
  intro other held found
  rw [Dict.getElem?_insert] at found
  split at found
  · obtain rfl := Option.some.inj found
    exact own
  · exact exact other held found

theorem ExactHeaders.ofPairs (pairs : List (String × HeaderValue))
    (exact : ∀ pair ∈ pairs, pair.2.toWire.Exact) : ExactHeaders (Dict.ofPairs pairs) :=
  Dict.forall_ofPairs exact

theorem exactHeaders_operation (operation : String) (relation : Relation) :
    ExactHeaders (operationHeaders operation relation) := by
  apply ExactHeaders.ofPairs
  simp [HeaderValue.toWire, WireValue.Exact]

section Messages

variable [Digest] {handle : String} {definition : Definition} {messages : List Message}
  {metadata : ChangeMetadata}

theorem Message.Exact.addDependentTag {message : Message} (exact : message.Exact)
    (handle : String) : (addDependentTag handle message).Exact := by
  unfold Shapes.addDependentTag
  split
  · exact exact
  · rw [Message.exact_iff] at exact ⊢
    exact exact.insert "tags" trivial

omit [Digest] in
theorem State.exact_of_nil {state : State} (snapshot : state.snapshot = [])
    (changes : state.changes = []) : state.Exact where
  snapshot := by simp [snapshot]
  changes := by simp [changes]

theorem resnapshot_exact (state : State) (definition : Definition) (snapshot : SnapshotResult)
    (currentOffset : String) (now : Time) :
    (state.resnapshot definition snapshot currentOffset now).Exact where
  snapshot := by
    have built : ∀ message ∈ buildSnapshotMessages definition snapshot, message.Exact := by
      intro message member
      unfold buildSnapshotMessages at member
      split at member
      · cases member
      · obtain ⟨row, -, rfl⟩ := List.mem_map.mp member
        exact Message.exact_iff.mpr (exactHeaders_operation _ _)
    intro message member
    change message ∈ decorateDependentSnapshotMessages _ _ _ at member
    unfold decorateDependentSnapshotMessages at member
    split at member
    · obtain ⟨plain, known, rfl⟩ := List.mem_map.mp member
      exact (built plain known).addDependentTag state.handle
    · exact built message member
  changes := by
    intro message member
    cases member

omit [Digest] in
theorem diffRows_exact (definition : Definition) (schema : Schema)
    (previous current : Dict Row) (keyRelation : Relation) :
    ∀ message ∈ diffRows definition schema previous current keyRelation, message.Exact := by
  intro message member
  obtain ⟨-, operation, headers⟩ := plain_of_mem_diffRows member
  rw [Message.exact_iff, headers]
  exact exactHeaders_operation operation definition.relation

theorem dependentMoveOutMessage_exact (handle internalKey : String) :
    (dependentMoveOutMessage handle internalKey).Exact := by
  rw [Message.exact_iff]
  apply ExactHeaders.ofPairs
  simp [HeaderValue.toWire, WireValue.Exact]

omit [Digest] in
theorem snapshotEndMessage_exact : snapshotEndMessage.Exact := by
  rw [Message.exact_iff]
  apply ExactHeaders.ofPairs
  simp [HeaderValue.toWire, WireValue.Exact]

theorem decorateDependentRefreshMessages_exact
    (exact : ∀ message ∈ messages, message.Exact) :
    ∀ message ∈ decorateDependentRefreshMessages handle definition messages metadata,
      message.Exact := by
  refine forall_mem_decorateDependentRefreshMessages exact ?_ snapshotEndMessage_exact
  intro related message known
  have tagged := (exact message known).addDependentTag handle
  unfold decorateMessage
  split
  · exact dependentMoveOutMessage_exact _ _
  · dsimp only
    split
    · rw [Message.exact_iff] at tagged ⊢
      exact tagged.insert "is_move_in" trivial
    · exact tagged

omit [Digest] in
theorem stampMessage_exact {message : Message} (exact : message.Exact) {index : Nat}
    (bound : index ≤ 2 ^ 53) (current : String) :
    (stampMessage current metadata index message).Exact := by
  rw [Message.exact_iff] at exact ⊢
  unfold stampMessage
  split
  · dsimp only
    split
    · exact exact
    · apply ExactHeaders.insert
      · apply ExactHeaders.insert
        · exact exact.insert "lsn" trivial
        · exact bound
      · refine ⟨by simp, ?_⟩
        intro n member
        obtain rfl : n = (metadata.transactionID.toNat : Int) := by simpa using member
        have := metadata.transactionID.toNat_lt
        omega
  · split <;> exact exact

omit [Digest] in
theorem markLast_exact (exact : ∀ message ∈ messages, message.Exact) :
    ∀ message ∈ markLast messages, message.Exact := by
  induction messages with
  | nil => exact exact
  | cons message rest hypothesis =>
      cases rest with
      | nil =>
          intro marked member
          rw [List.mem_singleton.mp member]
          have own := exact message List.mem_cons_self
          rw [Message.exact_iff] at own ⊢
          exact own.insert "last" trivial
      | cons next rest =>
          intro marked member
          rcases List.mem_cons.mp member with rfl | member
          · exact exact marked List.mem_cons_self
          · exact hypothesis (fun other known => exact other (List.mem_cons_of_mem _ known))
              marked member

omit [Digest] in
theorem applyChangeOffsets_exact (exact : ∀ message ∈ messages, message.Exact)
    (bound : messages.length ≤ 2 ^ 53) (current : String) :
    ∀ message ∈ (applyChangeOffsets current messages metadata).1, message.Exact := by
  have stamped : ∀ message ∈ messages.mapIdx (stampMessage current metadata),
      message.Exact := by
    intro message member
    obtain ⟨index, below, rfl⟩ := List.mem_mapIdx.mp member
    exact stampMessage_exact (exact _ (List.getElem_mem below)) (by omega) current
  unfold applyChangeOffsets
  dsimp only
  split
  · exact markLast_exact stamped
  · exact stamped

omit [Digest] in
theorem State.Exact.logMessages {state : State} (kept : state.Exact)
    (exact : ∀ message ∈ messages, message.Exact)
    (bound : (state.logMessages messages metadata).1.changes.length ≤ 2 ^ 53) :
    (state.logMessages messages metadata).1.Exact := by
  unfold State.logMessages at bound ⊢
  split
  · exact kept
  · next some =>
      refine ⟨kept.snapshot, ?_⟩
      rw [if_neg some] at bound
      have short : messages.length ≤ 2 ^ 53 := by
        have grown := bound
        simp only [List.length_append, applyChangeOffsets_length] at grown
        omega
      intro message member
      rcases List.mem_append.mp member with member | member
      · exact kept.changes message member
      · exact applyChangeOffsets_exact exact short _ message member

end Messages

section Refreshes

variable {state : State} {snapshot : SnapshotResult} {metadata : ChangeMetadata} {now : Time}

theorem State.Exact.refresh [Digest] (kept : state.Exact)
    (bound : (state.refresh snapshot metadata now).1.changes.length ≤ 2 ^ 53) :
    (state.refresh snapshot metadata now).1.Exact := by
  unfold State.refresh at bound ⊢
  refine State.Exact.logMessages ⟨kept.snapshot, kept.changes⟩ ?_ bound
  split
  · exact decorateDependentRefreshMessages_exact (diffRows_exact _ _ _ _ _)
  · exact diffRows_exact _ _ _ _ _

theorem State.Exact.refreshKeys {keyRows : List Row} {refreshed : State × List Message}
    (kept : state.Exact)
    (computed : state.refreshKeys snapshot keyRows metadata now = some refreshed)
    (bound : refreshed.1.changes.length ≤ 2 ^ 53) : refreshed.1.Exact := by
  unfold State.refreshKeys at computed
  dsimp only at computed
  split at computed
  · cases computed
  · obtain rfl := Option.some.inj computed
    refine State.Exact.logMessages ⟨kept.snapshot, kept.changes⟩ ?_ bound
    split
    · intro message member
      obtain ⟨plain, known, rfl⟩ := List.mem_map.mp member
      exact diffRows_exact _ _ _ _ _ plain known
    · exact diffRows_exact _ _ _ _ _

end Refreshes

/-! The shape as it comes back. -/

def State.reloaded (state : State) : State :=
  { state with
    snapshot := state.snapshot.map fun message => .ofWire message.toWire
    changes := state.changes.map fun change => .ofPersisted change.toPersisted }

theorem unmarshalState_reloaded (state : State) :
    unmarshalState (marshalState state) = some state.reloaded := by
  have changes : (state.changes.map fun change => RawMessage.encoded change.toPersisted).mapM
      unmarshalChange =
        some (state.changes.map fun change => .ofPersisted change.toPersisted) := by
    rw [List.mapM_map]
    exact mapM_eq_some_map fun _ _ => rfl
  simp [unmarshalState, marshalState, unmarshal, changes, State.reloaded, Function.comp_def]

theorem HeaderValue.toWire_ofWire (wire : WireValue) : (HeaderValue.ofWire wire).toWire = wire := by
  cases wire <;> rfl

theorem Message.toWire_ofWire (wire : WireMessage) : (Message.ofWire wire).toWire = wire := by
  obtain ⟨headers, key, value, oldValue⟩ := wire
  have same : (headers.map fun _ value => HeaderValue.ofWire value).map
      (fun _ value => value.toWire) = headers := by
    refine Std.ExtTreeMap.ext_getElem? fun name => ?_
    rw [Std.ExtTreeMap.getElem?_map, Std.ExtTreeMap.getElem?_map]
    cases headers[name]? with
    | none => rfl
    | some value => exact congrArg some (HeaderValue.toWire_ofWire value)
  simp [Message.ofWire, Message.toWire, same]

theorem Message.toWire_ofPersisted (message : Message) :
    (Message.ofPersisted message.toPersisted).toWire = message.toWire :=
  Message.toWire_ofWire message.toWire

theorem marshalState_reloaded (state : State) :
    marshalState state.reloaded = marshalState state := by
  have snapshot : (state.snapshot.map fun message => Message.ofWire message.toWire).map
      Message.toWire = state.snapshot.map Message.toWire := by
    rw [List.map_map]
    exact List.map_congr_left fun message _ => Message.toWire_ofWire message.toWire
  have changes : (state.changes.map fun change => Message.ofPersisted change.toPersisted).map
      (fun change => RawMessage.encoded change.toPersisted) =
        state.changes.map fun change => RawMessage.encoded change.toPersisted := by
    rw [List.map_map]
    refine List.map_congr_left fun message _ => ?_
    have wire := Message.toWire_ofPersisted message
    simp only [Function.comp_apply, Message.toPersisted] at wire ⊢
    rw [wire]
    rfl
  unfold marshalState State.reloaded
  dsimp only
  rw [snapshot, changes]

theorem State.Exact.reloaded {state : State} (exact : state.Exact) : state.reloaded.Exact where
  snapshot := by
    intro message member
    obtain ⟨written, held, rfl⟩ := List.mem_map.mp member
    rw [Message.Exact, Message.toWire_ofWire]
    exact exact.snapshot written held
  changes := by
    intro message member
    obtain ⟨written, held, rfl⟩ := List.mem_map.mp member
    rw [Message.Exact, Message.toWire_ofPersisted]
    exact exact.changes written held

/-! What clients see of a shape. -/

structure Observed where
  deleted : Bool
  hash : String
  definition : Definition
  schema : Schema
  currentOffset : String
  materialized : Dict Row

def State.observed (state : State) : Observed where
  deleted := state.deleted
  hash := state.hash
  definition := state.definition
  schema := state.schema
  currentOffset := state.currentOffset
  materialized := state.materialized

def Message.sent (message : Message) : String × Json :=
  (message.offset, message.toJson)

namespace Manager

def readSent (manager : Manager σ) (handle offset : String) :
    Except ManagerError (List (String × Json)) :=
  (manager.read handle offset).map fun found => found.2.map Message.sent

theorem changesAfter_reloaded (changes : List Message) (offset : String) :
    (changesAfter (changes.map fun change => .ofPersisted change.toPersisted) offset).map
      Message.sent = (changesAfter changes offset).map Message.sent := by
  have sent : ∀ message : Message,
      (Message.ofPersisted message.toPersisted).sent = message.sent := by
    intro message
    unfold Message.sent Message.toJson
    rw [Message.toWire_ofPersisted]
    rfl
  unfold changesAfter
  rw [List.filter_map, List.map_map]
  exact List.map_congr_left fun message _ => sent message

theorem readSent_reloaded {manager restarted : Manager σ} {handle : String}
    (reloaded : restarted.byHandle[handle]? = manager.byHandle[handle]?.map State.reloaded)
    (offset : String) : restarted.readSent handle offset = manager.readSent handle offset := by
  unfold readSent read readLocked
  rw [reloaded]
  cases manager.byHandle[handle]? with
  | none => rfl
  | some state =>
      dsimp only [Option.map_some, State.reloaded]
      cases state.deleted with
      | true => rfl
      | false =>
          rw [if_neg Bool.false_ne_true, if_neg Bool.false_ne_true]
          cases (parseOffset offset).isNone with
          | true => rfl
          | false =>
              rw [if_neg Bool.false_ne_true, if_neg Bool.false_ne_true]
              cases compareOffsets offset state.currentOffset with
              | gt => rfl
              | eq => rfl
              | lt => exact congrArg Except.ok (changesAfter_reloaded state.changes offset)

/-! Runs over a store that keeps the text of every record. -/

def EveryState (holds : State → Prop) (manager : Manager σ) : Prop :=
  ∀ (handle : String) (state : State), manager.byHandle[handle]? = some state → holds state

def TextKept (manager : Manager TextStore) : Prop :=
  ∀ handle : String, manager.store.shapes[handle]? =
    manager.byHandle[handle]?.map fun state => (marshalState state).written

section Steps

variable {manager : Manager TextStore} {write : Write}

theorem TextKept.attempt [Digest] (kept : manager.TextKept) (linked : manager.Linked)
    (legit : write.Legit manager) : (manager.attempt write).TextKept := by
  intro handle
  have accepted : manager.Accepts write.state := rfl
  rw [Manager.attempt, if_pos accepted, install_store, install_byHandle]
  show (manager.store.shapes.insert write.state.handle
    (marshalState write.state).written)[handle]? = _
  rw [Dict.getElem?_insert, linked.handle_eq legit]
  split
  · rfl
  · exact kept handle

theorem TextKept.buries [Digest] {last : Manager TextStore} (buries : manager.Buries last)
    (linked : manager.Linked) (kept : manager.TextKept) : last.TextKept := by
  induction buries with
  | done manager => exact kept
  | next active rest hypothesis =>
      have found := (active?_eq_some.mp active).1
      exact hypothesis (linked.attempt (.bury found)) (kept.attempt linked (.bury found))

theorem persistTombstones_texts (now : Time) (handles : List String) :
    ∀ manager : Manager TextStore,
      manager.persistTombstones now handles =
        (.ok (manager.tombstones now handles),
          { manager with store := { manager.store with
              shapes := (manager.tombstones now handles).foldl
                (fun shapes entry =>
                  shapes.insert entry.2.handle (marshalState entry.2).written)
                manager.store.shapes } }) := by
  induction handles with
  | nil =>
      intro manager
      rfl
  | cons handle rest hypothesis =>
      intro manager
      rw [persistTombstones]
      cases looked : manager.active? handle with
      | none =>
          rw [tombstones_cons_none looked]
          exact hypothesis manager
      | some state =>
          have first := @tombstones_cons_some _ manager now rest handle state looked
          have others : (manager.offered (state.tombstone now)).tombstones now rest =
              manager.tombstones now rest := rfl
          dsimp only
          rw [persistThen_of_accepts (show manager.Accepts (state.tombstone now) from rfl),
            hypothesis, others, first]
          rfl

theorem TextKept.invalidateByRelation (kept : manager.TextKept) (linked : manager.Linked)
    (relation : Relation) (now : Time) :
    (manager.invalidateByRelation relation now).2.TextKept := by
  have distinct := manager.listedTombstones_nodup relation now
  have named := linked.tombstones now (manager.listedHandles relation)
  have persisted := persistTombstones_texts now (manager.listedHandles relation) manager
  rcases manager.invalidateByRelation_cases relation now with
    ⟨-, nothing⟩ | ⟨store, ⟨error, saved, -⟩ | ⟨saved, succeeded⟩⟩
  · rw [nothing]
    exact kept
  · rw [persisted] at saved
    cases congrArg Prod.fst saved
  · rw [succeeded]
    rw [persisted] at saved
    obtain rfl := congrArg (fun outcome => outcome.2.store) saved
    intro handle
    have handles : (manager.tombstones now (manager.listedHandles relation)).map
        (fun entry => entry.2.handle) =
          (manager.tombstones now (manager.listedHandles relation)).map (·.1) :=
      List.map_congr_left named
    have found : (manager.tombstones now (manager.listedHandles relation)).find?
        (fun entry => entry.2.handle = handle) =
          (manager.tombstones now (manager.listedHandles relation)).find?
            fun entry => entry.1 = handle := by
      apply List.find?_congr
      intro entry member
      rw [named entry member]
    dsimp only
    rw [installTombstones_store, installTombstones_byHandle distinct]
    dsimp only
    rw [Dict.getElem?_foldl_insert (by rw [handles]; exact distinct), found, kept handle]
    cases (manager.tombstones now (manager.listedHandles relation)).find?
      fun entry => entry.1 = handle <;> simp

theorem TextKept.perform [Digest] (kept : manager.TextKept) (linked : manager.Linked)
    (call : Call) : (manager.perform call).TextKept := by
  rcases manager.perform_cases call with
    ⟨-, same⟩ | ⟨write, legit, -, same⟩ | ⟨-, buries⟩ | ⟨relation, -, same⟩
  · rw [same]
    exact kept
  · rw [same]
    exact kept.attempt linked legit
  · exact TextKept.buries buries linked kept
  · rw [same]
    exact kept.invalidateByRelation linked relation call.now

theorem EveryState.attempt {holds : State → Prop} (every : manager.EveryState holds)
    (own : holds write.state) : (manager.attempt write).EveryState holds := by
  intro handle state found
  have accepted : manager.Accepts write.state := rfl
  rw [Manager.attempt, if_pos accepted, install_byHandle] at found
  split at found
  · obtain rfl := Option.some.inj found
    exact own
  · exact every handle state found

theorem EveryState.persistThen {holds : State → Prop} (every : manager.EveryState holds)
    {state : State} {next : Manager TextStore → Outcome TextStore α} (write : Write)
    (offers : write.state = state)
    (installs : ∀ manager, ∃ result, next manager = (.ok result, manager.install write))
    (own : holds state) : (manager.persistThen state next).2.EveryState holds := by
  rw [persistThen_attempt write offers installs]
  apply every.attempt
  rw [offers]
  exact own

theorem EveryState.stateAt (every : manager.EveryState State.Exact) (handle : String) :
    (manager.stateAt handle).Exact := by
  rw [Manager.stateAt, Std.ExtTreeMap.getD_eq_getD_getElem?]
  cases found : manager.byHandle[handle]? with
  | none => exact State.exact_of_nil rfl rfl
  | some state => exact every handle state found

theorem EveryState.active (every : manager.EveryState State.Exact) {handle : String}
    {state : State} (active : manager.active? handle = some state) : state.Exact :=
  every handle state (active?_eq_some.mp active).1

theorem EveryState.buries [Digest] {last : Manager TextStore} (buries : manager.Buries last)
    (every : manager.EveryState State.Exact) : last.EveryState State.Exact := by
  induction buries with
  | done manager => exact every
  | next active rest hypothesis =>
      have exact := every.active active
      exact hypothesis (every.attempt ⟨exact.snapshot, exact.changes⟩)

theorem EveryState.invalidateByRelation (every : manager.EveryState State.Exact)
    (relation : Relation) (now : Time) :
    (manager.invalidateByRelation relation now).2.EveryState State.Exact := by
  have distinct := manager.listedTombstones_nodup relation now
  rcases manager.invalidateByRelation_cases relation now with
    ⟨-, nothing⟩ | ⟨store, ⟨error, -, failed⟩ | ⟨-, succeeded⟩⟩
  · rw [nothing]
    exact every
  · rw [failed]
    exact every
  · rw [succeeded]
    intro handle state found
    dsimp only at found
    rw [installTombstones_byHandle distinct, find?_tombstones] at found
    rcases Option.or_eq_some_iff.mp found with buried | ⟨-, kept⟩
    · split at buried
      · obtain ⟨old, active, rfl⟩ := Option.map_eq_some_iff.mp buried
        have exact := every.active active
        exact ⟨exact.snapshot, exact.changes⟩
      · cases buried
    · exact every handle state kept

/-- Go allocates at most `2 ^ 48` bytes, so no log is longer than this. -/
def FitsMemory (manager : Manager σ) : Prop :=
  manager.EveryState fun state => state.changes.length ≤ 2 ^ 53

theorem attempt_own (manager : Manager TextStore) (write : Write) :
    (manager.attempt write).byHandle[write.handle]? = some write.state := by
  have accepted : manager.Accepts write.state := rfl
  rw [Manager.attempt, if_pos accepted, install_byHandle, if_pos rfl]

theorem EveryState.commitRefresh (every : manager.EveryState State.Exact) {handle : String}
    {refreshed : State × List Message}
    (exact : refreshed.1.changes.length ≤ 2 ^ 53 → refreshed.1.Exact)
    (fits : (manager.commitRefresh handle refreshed).2.FitsMemory) :
    (manager.commitRefresh handle refreshed).2.EveryState State.Exact := by
  rw [commitRefresh_write] at fits ⊢
  exact every.attempt (exact (fits handle refreshed.1 (attempt_own manager _)))

theorem EveryState.perform [Digest] (every : manager.EveryState State.Exact) {call : Call}
    (supplied : ∀ handle messages, call.operation ≠ .append handle messages)
    (fits : (manager.perform call).FitsMemory) :
    (manager.perform call).EveryState State.Exact := by
  obtain ⟨operation, now⟩ := call
  have upserted : ∀ definition snapshot currentOffset,
      (manager.upsertSnapshotAtOffset definition snapshot currentOffset now).2.EveryState
        State.Exact := by
    intro definition snapshot currentOffset
    cases named : manager.byHash[canonicalHash definition]? with
    | some handle =>
        simp only [upsertSnapshotAtOffset, named]
        exact every.persistThen (.resnapshot (canonicalHash definition) handle
          (manager.stateAt handle) _) rfl (fun _ => ⟨_, rfl⟩) (resnapshot_exact _ _ _ _ _)
    | none =>
        simp only [upsertSnapshotAtOffset, named]
        exact every.persistThen (.create _) rfl (fun _ => ⟨_, rfl⟩)
          (resnapshot_exact _ _ _ _ _)
  cases operation with
  | upsertSnapshot definition snapshot => exact upserted definition snapshot initialOffset
  | upsertSnapshotAtOffset definition snapshot currentOffset =>
      exact upserted definition snapshot currentOffset
  | lookupOrCreateDefinition definition =>
      show (manager.lookupOrCreateDefinition definition now).2.EveryState State.Exact
      cases named : manager.byHash[canonicalHash definition]? with
      | some handle =>
          simp only [lookupOrCreateDefinition, named]
          have exact := every.stateAt handle
          exact every.persistThen (.put handle _ false) rfl (fun _ => ⟨_, rfl⟩)
            ⟨exact.snapshot, exact.changes⟩
      | none =>
          simp only [lookupOrCreateDefinition, named]
          exact every.persistThen (.create _) rfl (fun _ => ⟨_, rfl⟩)
            (State.exact_of_nil rfl rfl)
  | delete handle =>
      show (manager.delete handle now).2.EveryState State.Exact
      cases found : manager.byHandle[handle]? with
      | none =>
          simp only [delete, found]
          exact every
      | some state =>
          simp only [delete, found]
          have exact := every handle state found
          exact every.persistThen (.bury handle state now) rfl (fun _ => ⟨_, rfl⟩)
            ⟨exact.snapshot, exact.changes⟩
  | invalidateByRelation relation => exact every.invalidateByRelation relation now
  | invalidateAll => exact EveryState.buries (invalidateAllFrom_buries now _ manager []) every
  | append handle messages => exact absurd rfl (supplied handle messages)
  | refreshWithMetadata handle snapshot metadata =>
      change (manager.refreshWithMetadata handle snapshot metadata now).2.FitsMemory at fits
      show (manager.refreshWithMetadata handle snapshot metadata now).2.EveryState State.Exact
      cases required : manager.requireActive handle with
      | error error =>
          simp only [refreshWithMetadata, required]
          exact every
      | ok state =>
          simp only [refreshWithMetadata, required] at fits ⊢
          have exact := every handle state (requireActive_eq_ok.mp required).1
          exact every.commitRefresh exact.refresh fits
  | refreshKeysWithMetadata handle snapshot keyRows metadata =>
      change (manager.refreshKeysWithMetadata handle snapshot keyRows metadata now).2.FitsMemory
        at fits
      show (manager.refreshKeysWithMetadata handle snapshot keyRows metadata now).2.EveryState
        State.Exact
      cases required : manager.requireActive handle with
      | error error =>
          simp only [refreshKeysWithMetadata, required]
          exact every
      | ok state =>
          have exact := every handle state (requireActive_eq_ok.mp required).1
          cases computed : state.refreshKeys snapshot keyRows metadata now with
          | none =>
              simp only [refreshKeysWithMetadata, required, computed]
              exact every
          | some refreshed =>
              simp only [refreshKeysWithMetadata, required, computed] at fits ⊢
              exact every.commitRefresh (exact.refreshKeys computed) fits

end Steps

structure Restartable (manager : Manager TextStore) : Prop where
  linked : manager.Linked
  kept : manager.TextKept
  exact : manager.EveryState State.Exact

section Restarts

variable {manager : Manager TextStore}

theorem Restartable.mem_records (restartable : manager.Restartable) {shape : PersistedShape} :
    shape ∈ manager.store.shapes.values.map PersistedText.parsed ↔
      ∃ (handle : String) (state : State), manager.byHandle[handle]? = some state ∧
        marshalState state = shape := by
  constructor
  · intro member
    obtain ⟨text, held, rfl⟩ := List.mem_map.mp member
    obtain ⟨handle, stored⟩ := Dict.mem_values.mp held
    rw [restartable.kept handle] at stored
    obtain ⟨state, found, rfl⟩ := Option.map_eq_some_iff.mp stored
    exact ⟨handle, state, found, (restartable.exact handle state found).parsed_written.symm⟩
  · intro ⟨handle, state, found, same⟩
    have stored := restartable.kept handle
    rw [found, Option.map_some] at stored
    refine List.mem_map.mpr ⟨_, Dict.mem_values.mpr ⟨handle, stored⟩, ?_⟩
    rw [(restartable.exact handle state found).parsed_written, same]

theorem Restartable.distinct (restartable : manager.Restartable) :
    ((manager.store.shapes.values.map PersistedText.parsed).map (·.handle)).Nodup := by
  have handles : (manager.store.shapes.values.map PersistedText.parsed).map (·.handle) =
      manager.store.shapes.toList.map (·.1) := by
    rw [Dict.values_eq, List.map_map, List.map_map]
    refine List.map_congr_left fun entry member => ?_
    have stored : manager.store.shapes[entry.1]? = some entry.2 :=
      Std.ExtTreeMap.mem_toList_iff_getElem?_eq_some.mp member
    rw [restartable.kept entry.1] at stored
    obtain ⟨state, found, same⟩ := Option.map_eq_some_iff.mp stored
    have named : state.handle = entry.1 := restartable.linked.named entry.1 state found
    rw [← named]
    exact congrArg PersistedText.handle same.symm
  rw [handles, List.Nodup, List.pairwise_map]
  exact Std.ExtTreeMap.distinct_keys_toList.imp fun different equal =>
    different (by simp [equal])

theorem Restartable.decodes (restartable : manager.Restartable) :
    ∀ shape ∈ manager.store.shapes.values.map PersistedText.parsed,
      (unmarshalState shape).isSome = true := by
  intro shape member
  obtain ⟨handle, state, -, rfl⟩ := restartable.mem_records.mp member
  exact unmarshalState_marshalState state

theorem Restartable.restart (restartable : manager.Restartable) :
    (newManager manager.store).1 = .ok () ∧
      (newManager manager.store).2.Restartable ∧
      ∀ handle : String, (newManager manager.store).2.byHandle[handle]? =
        manager.byHandle[handle]?.map State.reloaded := by
  obtain ⟨indexed, store, found, others⟩ := loadPersisted_decoding
    (manager.store.shapes.values.map PersistedText.parsed) { store := manager.store }
    restartable.decodes restartable.distinct (by simp) (.empty _)
  have byHandle : ∀ handle : String, (newManager manager.store).2.byHandle[handle]? =
      manager.byHandle[handle]?.map State.reloaded := by
    intro handle
    cases held : manager.byHandle[handle]? with
    | none =>
        refine (others handle fun shape member same => ?_).trans (by simp)
        obtain ⟨other, state, known, rfl⟩ := restartable.mem_records.mp member
        have named : state.handle = other := restartable.linked.named other state known
        obtain rfl : other = handle := named.symm.trans same
        rw [known] at held
        cases held
    | some state =>
        have named : state.handle = handle := restartable.linked.named handle state held
        have loaded := found (marshalState state)
          (restartable.mem_records.mpr ⟨handle, state, held, rfl⟩)
        rw [unmarshalState_reloaded] at loaded
        rw [← named]
        exact loaded
  refine ⟨congrArg Prod.fst (loadPersisted_of_decoding _ _ restartable.decodes),
    ⟨indexed.linked, ?_, ?_⟩, byHandle⟩
  · intro handle
    rw [byHandle handle]
    have same : (newManager manager.store).2.store = manager.store := store
    rw [same, restartable.kept handle, Option.map_map]
    congr 1
    funext state
    rw [Function.comp_apply, marshalState_reloaded]
  · intro handle state held
    rw [byHandle handle] at held
    obtain ⟨old, known, rfl⟩ := Option.map_eq_some_iff.mp held
    exact (restartable.exact handle old known).reloaded

end Restarts

variable [Digest]

/-- What an event does to a manager over a store that keeps every record. -/
def live (manager : Manager TextStore) : Event → Manager TextStore
  | .operate call => manager.perform call
  | .restart => (newManager manager.store).2

end Manager

/-- The event supplies no messages of its own. -/
def Event.Generates : Event → Prop
  | .operate call => ∀ handle messages, call.operation ≠ .append handle messages
  | .restart => True

theorem Manager.Restartable.live [Digest] {manager : Manager TextStore} {event : Event}
    (restartable : manager.Restartable) (generates : event.Generates)
    (fits : (manager.live event).FitsMemory) : (manager.live event).Restartable := by
  cases event with
  | restart => exact restartable.restart.2.1
  | operate call =>
      exact ⟨restartable.linked.perform call, restartable.kept.perform restartable.linked call,
        restartable.exact.perform generates fits⟩

/-- After any run of snapshots, refreshes, deletions, invalidations and restarts, a restart
succeeds, and every handle has the same shape as before and reads the same messages. -/
theorem restart_is_transparent [Digest] (events : List Event)
    (generate : ∀ event ∈ events, event.Generates)
    (fits : Along Manager.live (fun manager event => (manager.live event).FitsMemory)
      { store := {} } events) :
    let manager := events.foldl Manager.live { store := {} }
    let restart := Manager.newManager manager.store
    restart.1 = .ok () ∧
      ∀ handle : String,
        restart.2.byHandle[handle]?.map State.observed =
            manager.byHandle[handle]?.map State.observed ∧
          ∀ offset, restart.2.readSent handle offset = manager.readSent handle offset := by
  have always : Along Manager.live (fun _ event => event.Generates)
      ({ store := {} } : Manager TextStore) events :=
    Along.of_forall events _ fun _ => generate
  have preserved : ∀ (manager : Manager TextStore) (event : Event), manager.Restartable →
      event.Generates ∧ (manager.live event).FitsMemory →
        (manager.live event).Restartable := by
    intro manager event restartable meets
    exact restartable.live meets.1 meets.2
  have initial : ({ store := {} } : Manager TextStore).Restartable :=
    ⟨.empty _, fun handle => by simp, fun handle state found => by simp at found⟩
  have reached := Along.invariant preserved events _ initial (Along.and events _ always fits)
  obtain ⟨started, -, reloaded⟩ := reached.restart
  refine ⟨started, fun handle => ⟨?_, Manager.readSent_reloaded (reloaded handle)⟩⟩
  rw [reloaded handle, Option.map_map]
  rfl

instance (holds : State → Prop) [DecidablePred holds] (manager : Manager σ) :
    Decidable (manager.EveryState holds) :=
  inferInstanceAs (Decidable (∀ handle state, manager.byHandle[handle]? = some state →
    holds state))

instance (manager : Manager σ) : Decidable manager.FitsMemory :=
  inferInstanceAs (Decidable (manager.EveryState _))

/-- A shape is changed by a transaction before a restart and by another after it. -/
def changeAcrossRestart : List Event :=
  [.operate ⟨.upsertSnapshot itemsDefinition ⟨itemsSchema, [itemRow "1" "one"], none⟩, 1000⟩,
    .operate ⟨.refreshWithMetadata "fa19db76c4-1"
      ⟨itemsSchema, [itemRow "1" "uno", itemRow "2" "two"], none⟩
      { commitLSN := 7, transactionID := 5 }, 2000⟩,
    .restart,
    .operate ⟨.refreshKeysWithMetadata "fa19db76c4-1" ⟨itemsSchema, [], none⟩
      [itemRow "2" "two"] { commitLSN := 9, transactionID := 6 }, 3000⟩]

theorem changeAcrossRestart_generates : ∀ event ∈ changeAcrossRestart, event.Generates := by
  simp [changeAcrossRestart, Event.Generates]

theorem restart_is_transparent_changeAcrossRestart :
    letI := tabulatedDigest
    let manager := changeAcrossRestart.foldl Manager.live { store := {} }
    let restart := Manager.newManager manager.store
    restart.1 = .ok () ∧
      ∀ handle : String,
        restart.2.byHandle[handle]?.map State.observed =
            manager.byHandle[handle]?.map State.observed ∧
          ∀ offset, restart.2.readSent handle offset = manager.readSent handle offset :=
  @restart_is_transparent tabulatedDigest changeAcrossRestart changeAcrossRestart_generates
    (by decide +kernel)

end PostgresSync.Shapes
