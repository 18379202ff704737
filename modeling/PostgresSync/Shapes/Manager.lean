import PostgresSync.Shapes.Persistence

namespace PostgresSync.Shapes

open PostgresSync.Data
open PostgresSync.Storage

inductive ManagerError where
  | shapeNotFound
  | shapeDeleted
  | offsetOutOfRange
  | store (error : StoreError)
deriving DecidableEq, Repr

/-- `waiters` holds the channels that wait for a change of a shape, and `closed`
the channels that a notification has closed. -/
structure Manager (σ : Type) where
  store : σ
  byHandle : Dict State := ∅
  byHash : Dict String := ∅
  byRelation : Dict StringSet := ∅
  generation : Nat := 0
  waiters : Dict (List Nat) := ∅
  closed : List Nat := []
deriving DecidableEq

abbrev Outcome (σ α : Type) := Except ManagerError α × Manager σ

namespace Manager

variable [Store σ]

/-! The helpers that run under the lock. -/

def addRelationLocked (manager : Manager σ) (relation : Relation)
    (handle : String) : Manager σ :=
  { manager with
    byRelation := manager.byRelation.insert (relationKey relation)
      ((manager.byRelation.getD (relationKey relation) ∅).insert handle) }

def removeRelationLocked (manager : Manager σ) (relation : Relation)
    (handle : String) : Manager σ :=
  let handles := manager.byRelation.getD (relationKey relation) ∅
  if handles.isEmpty then
    manager
  else
    let handles := handles.erase handle
    { manager with
      byRelation :=
        if handles.isEmpty then
          manager.byRelation.erase (relationKey relation)
        else
          manager.byRelation.insert (relationKey relation) handles }

def notifyLocked (manager : Manager σ) (handle : String) : Manager σ :=
  { manager with
    waiters := manager.waiters.erase handle
    closed := manager.waiters.getD handle [] ++ manager.closed }

def persistStateLocked (manager : Manager σ) (state : State) :
    Except StoreError Unit × Manager σ :=
  let saved := Store.saveShape manager.store (marshalState state)
  (saved.1, { manager with store := saved.2 })

/-- Persist a state, and go on only when the store accepts it. -/
def persistThen (manager : Manager σ) (state : State)
    (next : Manager σ → Outcome σ α) : Outcome σ α :=
  match manager.persistStateLocked state with
  | (.error error, manager) => (.error (.store error), manager)
  | (.ok (), manager) => next manager

def Accepts (manager : Manager σ) (state : State) : Prop :=
  (Store.saveShape manager.store (marshalState state)).1 = .ok ()

instance (manager : Manager σ) (state : State) :
    Decidable (manager.Accepts state) :=
  inferInstanceAs (Decidable (_ = Except.ok ()))

def offered (manager : Manager σ) (state : State) : Manager σ :=
  { manager with store := (Store.saveShape manager.store (marshalState state)).2 }

theorem persistThen_of_accepts {manager : Manager σ} {state : State}
    {next : Manager σ → Outcome σ α} (accepted : manager.Accepts state) :
    manager.persistThen state next = next (manager.offered state) := by
  unfold Accepts at accepted
  simp [persistThen, persistStateLocked, accepted, offered]

theorem persistThen_of_not_accepts {manager : Manager σ} {state : State}
    {next : Manager σ → Outcome σ α} (refused : ¬manager.Accepts state) :
    ∃ error, manager.persistThen state next =
      (.error (.store error), manager.offered state) := by
  unfold Accepts at refused
  cases saved : (Store.saveShape manager.store (marshalState state)).1 with
  | ok value => exact absurd saved refused
  | error error => exact ⟨error, by simp [persistThen, persistStateLocked, saved, offered]⟩

theorem persistThen_cases (manager : Manager σ) (state : State)
    (next : Manager σ → Outcome σ α) :
    manager.persistThen state next = next (manager.offered state) ∨
      ∃ error, manager.persistThen state next =
        (.error (.store error), manager.offered state) := by
  by_cases accepted : manager.Accepts state
  · exact .inl (persistThen_of_accepts accepted)
  · exact .inr (persistThen_of_not_accepts accepted)

def putState (manager : Manager σ) (handle : String) (state : State) :
    Manager σ :=
  { manager with byHandle := manager.byHandle.insert handle state }

def putHash (manager : Manager σ) (hash handle : String) : Manager σ :=
  { manager with byHash := manager.byHash.insert hash handle }

def dropHash (manager : Manager σ) (hash : String) : Manager σ :=
  { manager with byHash := manager.byHash.erase hash }

/-- The state under a handle, with Go's zero value for a missing one. -/
def stateAt (manager : Manager σ) (handle : String) : State :=
  manager.byHandle.getD handle {}

variable [Digest]

/-! Creating and finding shapes. -/

/-- `hash[:10] + "-" + strconv.FormatInt(now.UnixMicro(), 10)`. -/
def newHandle (hash : String) (now : Time) : String :=
  String.ofList (hash.toList.take 10) ++ "-" ++ toString (now / 1000)

def newState (manager : Manager σ) (hash : String) (now : Time) : State where
  handle := newHandle hash now
  hash := hash
  generation := manager.generation + 1

def register (manager : Manager σ) (state : State) : Manager σ :=
  { manager with generation := manager.generation + 1 }
    |>.putState state.handle state
    |>.putHash state.hash state.handle
    |>.addRelationLocked state.definition.relation state.handle

def reinstall (manager : Manager σ) (hash handle : String)
    (existing updated : State) : Manager σ :=
  manager.removeRelationLocked existing.definition.relation handle
    |>.putState handle updated
    |>.putHash hash handle
    |>.addRelationLocked updated.definition.relation handle
    |>.notifyLocked handle

def upsertSnapshotAtOffset (manager : Manager σ) (definition : Definition)
    (snapshot : SnapshotResult) (currentOffset : String) (now : Time) :
    Outcome σ State :=
  let hash := canonicalHash definition
  match manager.byHash[hash]? with
  | some handle =>
      let existing := manager.stateAt handle
      let updated := existing.resnapshot definition snapshot currentOffset now
      manager.persistThen updated fun manager =>
        (.ok updated, manager.reinstall hash handle existing updated)
  | none =>
      let state := (manager.newState hash now).resnapshot definition snapshot
        currentOffset now
      manager.persistThen state fun manager => (.ok state, manager.register state)

def upsertSnapshot (manager : Manager σ) (definition : Definition)
    (snapshot : SnapshotResult) (now : Time) : Outcome σ State :=
  manager.upsertSnapshotAtOffset definition snapshot initialOffset now

def lookupOrCreateDefinition (manager : Manager σ) (definition : Definition)
    (now : Time) : Outcome σ State :=
  let hash := canonicalHash definition
  match manager.byHash[hash]? with
  | some handle =>
      let state := { manager.stateAt handle with lastAccess := now }
      manager.persistThen state fun manager =>
        (.ok state, manager.putState handle state)
  | none =>
      let state := { manager.newState hash now with
        definition := definition
        currentOffset := initialOffset
        lastAccess := now }
      manager.persistThen state fun manager => (.ok state, manager.register state)

def active? (manager : Manager σ) (handle : String) : Option State :=
  manager.byHandle[handle]?.filter fun state => !state.deleted

def lookupByHandle (manager : Manager σ) (handle : String) : Option State :=
  manager.active? handle

def lookupByDefinition (manager : Manager σ) (definition : Definition) :
    Option State :=
  manager.byHash[canonicalHash definition]?.bind manager.active?

/-! Tombstones. -/

def delete (manager : Manager σ) (handle : String) (now : Time) :
    Outcome σ Bool :=
  match manager.byHandle[handle]? with
  | none => (.ok false, manager)
  | some state =>
      let updated := state.tombstone now
      manager.persistThen updated fun manager =>
        (.ok true,
          manager.dropHash state.hash
            |>.removeRelationLocked state.definition.relation handle
            |>.putState handle updated
            |>.notifyLocked handle)

/-- The first loop of `InvalidateByRelation`, which writes every tombstone to
the store before any of them is installed. -/
def persistTombstones (manager : Manager σ) (now : Time) :
    List String → Outcome σ (List (String × State))
  | [] => (.ok [], manager)
  | handle :: rest =>
      match manager.active? handle with
      | none => manager.persistTombstones now rest
      | some state =>
          let updated := state.tombstone now
          manager.persistThen updated fun manager =>
            match manager.persistTombstones now rest with
            | (.error error, manager) => (.error error, manager)
            | (.ok others, manager) => (.ok ((handle, updated) :: others), manager)

/-- One turn of the second loop of `InvalidateByRelation`. -/
def installTombstone (manager : Manager σ) (entry : String × State) :
    Manager σ :=
  manager.dropHash entry.2.hash
    |>.putState entry.1 entry.2
    |>.notifyLocked entry.1

def invalidateByRelation (manager : Manager σ) (relation : Relation)
    (now : Time) : Outcome σ (List String) :=
  let handles := manager.byRelation.getD (relationKey relation) ∅
  if handles.isEmpty then
    (.ok [], manager)
  else
    match manager.persistTombstones now handles.toList with
    | (.error error, manager) => (.error error, manager)
    | (.ok updated, manager) =>
        let manager := updated.foldl installTombstone manager
        (.ok (updated.map (·.1)),
          { manager with
            byRelation := manager.byRelation.erase (relationKey relation) })

/-- The loop of `InvalidateAll`.  It installs each tombstone as soon as the
store has it, so an error leaves the earlier ones in place. -/
def invalidateAllFrom (manager : Manager σ) (now : Time)
    (invalidated : List String) :
    List String → (List String × Except ManagerError Unit) × Manager σ
  | [] => ((invalidated, .ok ()), manager)
  | handle :: rest =>
      match manager.active? handle with
      | none => manager.invalidateAllFrom now invalidated rest
      | some state =>
          let updated := state.tombstone now
          match manager.persistStateLocked updated with
          | (.error error, manager) =>
              ((invalidated, .error (.store error)), manager)
          | (.ok (), manager) =>
              (manager.removeRelationLocked state.definition.relation handle
                |>.dropHash updated.hash
                |>.putState handle updated
                |>.notifyLocked handle).invalidateAllFrom now
                  (invalidated ++ [handle]) rest

def invalidateAll (manager : Manager σ) (now : Time) :
    (List String × Except ManagerError Unit) × Manager σ :=
  manager.invalidateAllFrom now [] manager.byHandle.keys

/-! Reading. -/

def activeByRelation (manager : Manager σ) (relation : Relation) : List State :=
  (((manager.byRelation.getD (relationKey relation) ∅).toList.filterMap
    manager.active?).insertionSort fun left right => left.handle ≤ right.handle)

def activeStates (manager : Manager σ) : List State :=
  (manager.byHandle.values.filter fun state => !state.deleted).insertionSort
    fun left right => left.handle ≤ right.handle

def count (manager : Manager σ) : Nat := manager.byHandle.size

def changesAfter (changes : List Message) (offset : String) : List Message :=
  changes.filter fun message => compareOffsets message.offset offset = .gt

def readLocked (manager : Manager σ) (handle offset : String) :
    Except ManagerError (State × List Message) :=
  match manager.byHandle[handle]? with
  | none => .error .shapeNotFound
  | some state =>
      if state.deleted then
        .error .shapeDeleted
      else if (parseOffset offset).isNone then
        .error .offsetOutOfRange
      else
        match compareOffsets offset state.currentOffset with
        | .gt => .error .offsetOutOfRange
        | .eq => .ok (state, [])
        | .lt => .ok (state, changesAfter state.changes offset)

def read (manager : Manager σ) (handle offset : String) :
    Except ManagerError (State × List Message) :=
  manager.readLocked handle offset

def removeWaiter (manager : Manager σ) (handle : String) (waiter : Nat) :
    Manager σ :=
  let waiters := (manager.waiters.getD handle []).erase waiter
  { manager with
    waiters :=
      if waiters.isEmpty then
        manager.waiters.erase handle
      else
        manager.waiters.insert handle waiters }

/-- Where a call of `WaitForChange` stands between two of its steps. -/
inductive WaitPhase where
  /-- Before the unlocked `Read`. -/
  | polling
  /-- Before the lock is taken to read again and register. -/
  | registering
  /-- In the `select`. -/
  | waiting (waiter : Nat)
deriving DecidableEq

inductive Wake where
  | notified
  | deadline
deriving DecidableEq

inductive WaitProgress where
  | pending (phase : WaitPhase)
  | deadlineExceeded
  | returned (result : Except ManagerError (State × List Message))

/-- One step of `WaitForChange`.  The lock is free between the steps.  `fresh` is
the channel that a registration makes, and `wake` the case the `select` takes;
the case of the channel needs it closed. -/
def waitForChange (manager : Manager σ) (handle offset : String) (fresh : Nat)
    (wake : Wake) : WaitPhase → WaitProgress × Manager σ
  | .polling =>
      match manager.read handle offset with
      | .ok (_, []) => (.pending .registering, manager)
      | result => (.returned result, manager)
  | .registering =>
      match manager.readLocked handle offset with
      | .ok (_, []) =>
          (.pending (.waiting fresh),
            { manager with
              waiters := manager.waiters.insert handle
                (manager.waiters.getD handle [] ++ [fresh]) })
      | result => (.returned result, manager)
  | .waiting waiter =>
      match wake with
      | .deadline => (.deadlineExceeded, manager.removeWaiter handle waiter)
      | .notified =>
          if waiter ∈ manager.closed then
            (.returned (manager.read handle offset), manager)
          else
            (.pending (.waiting waiter), manager)

/-! Changing an active shape. -/

def requireActive (manager : Manager σ) (handle : String) :
    Except ManagerError State :=
  match manager.byHandle[handle]? with
  | none => .error .shapeNotFound
  | some state => if state.deleted then .error .shapeDeleted else .ok state

def append (manager : Manager σ) (handle : String) (messages : List Message)
    (now : Time) : Outcome σ State :=
  match manager.requireActive handle with
  | .error error => (.error error, manager)
  | .ok state =>
      let updated := { state.appendFrom 0 messages with lastAccess := now }
      manager.persistThen updated fun manager =>
        (.ok updated, (manager.putState handle updated).notifyLocked handle)

/-- The end of both refresh functions: persist, install, and notify when there
is something to send. -/
def commitRefresh (manager : Manager σ) (handle : String)
    (refreshed : State × List Message) : Outcome σ (State × List Message) :=
  manager.persistThen refreshed.1 fun manager =>
    let manager := manager.putState handle refreshed.1
    (.ok refreshed,
      if refreshed.2.isEmpty then manager else manager.notifyLocked handle)

def refreshWithMetadata (manager : Manager σ) (handle : String)
    (snapshot : SnapshotResult) (metadata : ChangeMetadata) (now : Time) :
    Outcome σ (State × List Message) :=
  match manager.requireActive handle with
  | .error error => (.error error, manager)
  | .ok state => manager.commitRefresh handle (state.refresh snapshot metadata now)

def refreshKeysWithMetadata (manager : Manager σ) (handle : String)
    (snapshot : SnapshotResult) (keyRows : List Row)
    (metadata : ChangeMetadata) (now : Time) :
    Outcome σ (State × List Message) :=
  match manager.requireActive handle with
  | .error error => (.error error, manager)
  | .ok state =>
      match state.refreshKeys snapshot keyRows metadata now with
      | none => (.ok (state, []), manager)
      | some refreshed => manager.commitRefresh handle refreshed

/-! Loading. -/

def loadState (manager : Manager σ) (state : State) : Manager σ :=
  let manager := manager.putState state.handle state
  let manager :=
    if state.deleted then
      manager
    else
      (manager.putHash state.hash state.handle).addRelationLocked
        state.definition.relation state.handle
  { manager with generation := max manager.generation state.generation }

def loadPersisted (manager : Manager σ) : List PersistedShape → Outcome σ Unit
  | [] => (.ok (), manager)
  | persisted :: rest =>
      match unmarshalState persisted with
      | some state => (manager.loadState state).loadPersisted rest
      | none =>
          let state := corruptState persisted
          manager.persistThen state fun manager =>
            (manager.loadState state).loadPersisted rest

def newManager (store : σ) : Outcome σ Unit :=
  let manager : Manager σ := { store := store }
  match Store.loadShapes store with
  | .error error => (.error (.store error), manager)
  | .ok shapes => manager.loadPersisted shapes

end Manager

def itemsManagerOver [Store σ] (store : σ) : Manager σ :=
  letI := tabulatedDigest
  (Manager.upsertSnapshot { store := store } itemsDefinition
    ⟨itemsSchema, [itemRow "1" "one"], none⟩ 1000).2

end PostgresSync.Shapes
