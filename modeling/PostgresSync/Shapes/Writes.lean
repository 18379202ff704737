import PostgresSync.Shapes.CatalogRuns
import PostgresSync.Shapes.ChangeLog
import PostgresSync.Shapes.Effects

namespace PostgresSync.Shapes

open PostgresSync.Data
open PostgresSync.Storage

/-! Every operation of the manager offers states to the store one at a time, and
installs a state in its maps when the store has taken it. -/

inductive Write where
  | create (state : State)
  | resnapshot (hash handle : String) (existing updated : State)
  | put (handle : String) (state : State) (notifies : Bool)
  | bury (handle : String) (state : State) (now : Time)

namespace Write

def state : Write → State
  | create state => state
  | resnapshot _ _ _ updated => updated
  | put _ state _ => state
  | bury _ state now => state.tombstone now

def handle : Write → String
  | create state => state.handle
  | resnapshot _ handle _ _ => handle
  | put handle _ _ => handle
  | bury handle _ _ => handle

def notifies : Write → Bool
  | create _ => false
  | resnapshot .. => true
  | put _ _ notifies => notifies
  | bury .. => true

def indexed (byHash : Dict String) : Write → Dict String
  | create state => byHash.insert state.hash state.handle
  | resnapshot hash handle _ _ => byHash.insert hash handle
  | put _ _ _ => byHash
  | bury _ state _ => byHash.erase state.hash

theorem create_eq_iff (made state : State) :
    create made = .create state ↔ some made = some state := by
  simp

end Write

namespace Manager

def install (manager : Manager σ) : Write → Manager σ
  | .create state => manager.register state
  | .resnapshot hash handle existing updated =>
      manager.reinstall hash handle existing updated
  | .put handle state notifies =>
      let manager := manager.putState handle state
      if notifies then manager.notifyLocked handle else manager
  | .bury handle state now =>
      manager.dropHash state.hash
        |>.removeRelationLocked state.definition.relation handle
        |>.putState handle (state.tombstone now)
        |>.notifyLocked handle

/-- Offer the state of a write to the store, and install it when it is taken. -/
def attempt [Store σ] (manager : Manager σ) (write : Write) : Manager σ :=
  if manager.Accepts write.state then
    (manager.offered write.state).install write
  else
    manager.offered write.state

section Install

variable (manager : Manager σ) (write : Write)

theorem install_byHandle (handle : String) :
    (manager.install write).byHandle[handle]? =
      if write.handle = handle then some write.state else manager.byHandle[handle]? := by
  cases write with
  | create state => exact register_byHandle manager state handle
  | resnapshot hash target existing updated =>
      exact reinstall_byHandle manager hash target handle existing updated
  | put target state notifies =>
      cases notifies <;> exact putState_byHandle manager target handle state
  | bury target state now =>
      apply (putState_byHandle _ target handle _).trans
      rw [removeRelationLocked_byHandle]
      rfl

@[simp] theorem removeRelationLocked_store (relation : Relation) (handle : String) :
    (manager.removeRelationLocked relation handle).store = manager.store := by
  unfold removeRelationLocked
  dsimp only
  split <;> rfl

@[simp] theorem removeRelationLocked_waiters (relation : Relation) (handle : String) :
    (manager.removeRelationLocked relation handle).waiters = manager.waiters := by
  unfold removeRelationLocked
  dsimp only
  split <;> rfl

@[simp] theorem removeRelationLocked_closed (relation : Relation) (handle : String) :
    (manager.removeRelationLocked relation handle).closed = manager.closed := by
  unfold removeRelationLocked
  dsimp only
  split <;> rfl

theorem install_store : (manager.install write).store = manager.store := by
  cases write with
  | create state => rfl
  | resnapshot hash handle existing updated =>
      exact removeRelationLocked_store manager existing.definition.relation handle
  | put handle state notifies => cases notifies <;> rfl
  | bury handle state now =>
      exact removeRelationLocked_store _ state.definition.relation handle

theorem install_waiters : (manager.install write).waiters =
    if write.notifies then manager.waiters.erase write.handle else manager.waiters := by
  cases write with
  | create state => rfl
  | resnapshot hash handle existing updated =>
      exact congrArg (fun waiters => waiters.erase handle)
        (removeRelationLocked_waiters manager existing.definition.relation handle)
  | put handle state notifies => cases notifies <;> rfl
  | bury handle state now =>
      exact congrArg (fun waiters => waiters.erase handle)
        (removeRelationLocked_waiters (manager.dropHash state.hash)
          state.definition.relation handle)

theorem install_closed : (manager.install write).closed =
    if write.notifies then manager.waiters.getD write.handle [] ++ manager.closed
    else manager.closed := by
  cases write with
  | create state => rfl
  | resnapshot hash handle existing updated =>
      exact congrArg₂ (fun waiters closed => waiters.getD handle [] ++ closed)
        (removeRelationLocked_waiters manager existing.definition.relation handle)
        (removeRelationLocked_closed manager existing.definition.relation handle)
  | put handle state notifies => cases notifies <;> rfl
  | bury handle state now =>
      exact congrArg₂ (fun waiters closed => waiters.getD handle [] ++ closed)
        (removeRelationLocked_waiters (manager.dropHash state.hash)
          state.definition.relation handle)
        (removeRelationLocked_closed (manager.dropHash state.hash)
          state.definition.relation handle)

theorem install_byHash : (manager.install write).byHash = write.indexed manager.byHash := by
  cases write with
  | create state => rfl
  | resnapshot hash handle existing updated =>
      exact congrArg (fun byHash => byHash.insert hash handle)
        (removeRelationLocked_byHash manager existing.definition.relation handle)
  | put handle state notifies => cases notifies <;> rfl
  | bury handle state now =>
      exact removeRelationLocked_byHash _ state.definition.relation handle

theorem removeRelationLocked_dropHash (relation : Relation)
    (handle hash : String) :
    (manager.removeRelationLocked relation handle).dropHash hash =
      (manager.dropHash hash).removeRelationLocked relation handle := by
  unfold removeRelationLocked
  dsimp only [dropHash]
  split <;> rfl

end Install

end Manager

/-- What an operation knows of the manager when it makes a write. -/
inductive Write.Legit [Digest] (manager : Manager σ) : Write → Prop
  | create {state : State} {now : Time} (unnamed : manager.byHash[state.hash]? = none)
      (handle : state.handle = Manager.newHandle state.hash now)
      (active : state.deleted = false) (unchanged : state.changes = []) :
      Legit manager (.create state)
  | resnapshot {handle : String} {definition : Definition} {snapshot : SnapshotResult}
      {currentOffset : String} {now : Time}
      (named : manager.byHash[canonicalHash definition]? = some handle) :
      Legit manager (.resnapshot (canonicalHash definition) handle
        (manager.stateAt handle)
        ((manager.stateAt handle).resnapshot definition snapshot currentOffset now))
  | touch {hash handle : String} {now : Time} (named : manager.byHash[hash]? = some handle) :
      Legit manager (.put handle { manager.stateAt handle with lastAccess := now } false)
  | change {handle : String} {old new : State} {notifies : Bool}
      (active : manager.active? handle = some old) (same : State.SameShape new old)
      (quiet : notifies = false →
        new.changes = old.changes ∧ new.currentOffset = old.currentOffset) :
      Legit manager (.put handle new notifies)
  | bury {handle : String} {state : State} {now : Time}
      (found : manager.byHandle[handle]? = some state) :
      Legit manager (.bury handle state now)

theorem Write.Legit.offered [Digest] [Store σ] {manager : Manager σ} {write : Write}
    (legit : write.Legit manager) (state : State) : write.Legit (manager.offered state) := by
  cases legit with
  | create unnamed handle active unchanged => exact .create unnamed handle active unchanged
  | resnapshot named => exact .resnapshot named
  | touch named => exact .touch named
  | change active same quiet => exact .change active same quiet
  | bury found => exact .bury found

namespace Manager

variable [Store σ]

variable {manager : Manager σ} {state : State}

theorem persistThen_attempt {next : Manager σ → Outcome σ α} (write : Write)
    (offers : write.state = state)
    (installs : ∀ manager, ∃ result, next manager = (.ok result, manager.install write)) :
    (manager.persistThen state next).2 = manager.attempt write := by
  subst offers
  unfold attempt
  split
  · next accepted =>
      obtain ⟨result, installed⟩ := installs (manager.offered write.state)
      rw [persistThen_of_accepts accepted, installed]
  · next refused =>
      obtain ⟨error, failed⟩ : ∃ error, manager.persistThen write.state next =
          (.error (.store error), manager.offered write.state) :=
        persistThen_of_not_accepts refused
      rw [failed]

theorem commitRefresh_write (manager : Manager σ) (handle : String)
    (refreshed : State × List Message) :
    (manager.commitRefresh handle refreshed).2 =
      manager.attempt (.put handle refreshed.1 !refreshed.2.isEmpty) := by
  refine persistThen_attempt _ rfl fun next => ⟨refreshed, ?_⟩
  cases refreshed.2.isEmpty <;> simp [install]

/-- The writes of `InvalidateAll`, one after the other. -/
inductive Buries : Manager σ → Manager σ → Prop
  | done (manager : Manager σ) : Buries manager manager
  | next {manager last : Manager σ} {handle : String} {state : State} {now : Time}
      (active : manager.active? handle = some state)
      (rest : Buries (manager.attempt (.bury handle state now)) last) :
      Buries manager last

theorem invalidateAllFrom_of_accepts {handle : String} {now : Time}
    (active : manager.active? handle = some state)
    (accepted : manager.Accepts (state.tombstone now)) (invalidated rest : List String) :
    manager.invalidateAllFrom now invalidated (handle :: rest) =
      (manager.attempt (.bury handle state now)).invalidateAllFrom now
        (invalidated ++ [handle]) rest := by
  have saved : manager.persistStateLocked (state.tombstone now) =
      (.ok (), manager.offered (state.tombstone now)) := Prod.ext accepted rfl
  have installed : manager.attempt (.bury handle state now) =
      (manager.offered (state.tombstone now)).install (.bury handle state now) :=
    if_pos accepted
  rw [invalidateAllFrom, active, installed]
  dsimp only
  rw [saved]
  dsimp only
  rw [removeRelationLocked_dropHash]
  rfl

theorem invalidateAllFrom_of_not_accepts {handle : String} {now : Time}
    (active : manager.active? handle = some state)
    (refused : ¬manager.Accepts (state.tombstone now)) (invalidated rest : List String) :
    ∃ error, manager.invalidateAllFrom now invalidated (handle :: rest) =
      ((invalidated, .error error), manager.attempt (.bury handle state now)) := by
  have offered : manager.attempt (.bury handle state now) =
      manager.offered (state.tombstone now) := if_neg refused
  rw [invalidateAllFrom, active, offered]
  dsimp only
  cases saved : manager.persistStateLocked (state.tombstone now) with
  | mk result next =>
      obtain rfl : next = manager.offered (state.tombstone now) :=
        (congrArg Prod.snd saved).symm
      cases result with
      | ok value => exact absurd (congrArg Prod.fst saved) refused
      | error error => exact ⟨_, rfl⟩

theorem invalidateAllFrom_buries (now : Time) (handles : List String) :
    ∀ (manager : Manager σ) (invalidated : List String),
      manager.Buries (manager.invalidateAllFrom now invalidated handles).2 := by
  induction handles with
  | nil =>
      intro manager _
      exact .done manager
  | cons handle rest hypothesis =>
      intro manager invalidated
      cases active : manager.active? handle with
      | none =>
          rw [invalidateAllFrom, active]
          exact hypothesis manager invalidated
      | some state =>
          refine @Buries.next σ _ _ _ handle state now active ?_
          by_cases accepted : manager.Accepts (state.tombstone now)
          · rw [invalidateAllFrom_of_accepts active accepted]
            exact hypothesis _ _
          · obtain ⟨error, stopped⟩ :=
              invalidateAllFrom_of_not_accepts active accepted invalidated rest
            rw [stopped]
            exact .done _

variable [Digest]

def createdState (manager : Manager σ) (definition : Definition) (now : Time)
    (fill : State → State) : Option State :=
  match manager.byHash[canonicalHash definition]? with
  | some _ => none
  | none => some (fill (manager.newState (canonicalHash definition) now))

def creates (manager : Manager σ) (call : Call) : Option State :=
  match call.operation with
  | .upsertSnapshot definition snapshot =>
      manager.createdState definition call.now
        (·.resnapshot definition snapshot initialOffset call.now)
  | .upsertSnapshotAtOffset definition snapshot currentOffset =>
      manager.createdState definition call.now
        (·.resnapshot definition snapshot currentOffset call.now)
  | .lookupOrCreateDefinition definition =>
      manager.createdState definition call.now fun state => { state with
        definition := definition
        currentOffset := initialOffset
        lastAccess := call.now }
  | _ => none

/-- An operation makes one write, and a new shape is the one it creates. -/
def Performs (manager next : Manager σ) (created : Option State) : Prop :=
  ∃ write : Write, write.Legit manager ∧ (∀ state, write = .create state ↔
    created = some state) ∧ next = manager.attempt write

theorem upsertSnapshotAtOffset_write (manager : Manager σ) (definition : Definition)
    (snapshot : SnapshotResult) (currentOffset : String) (now : Time) :
    manager.Performs
      (manager.upsertSnapshotAtOffset definition snapshot currentOffset now).2
      (manager.createdState definition now
        (·.resnapshot definition snapshot currentOffset now)) := by
  cases named : manager.byHash[canonicalHash definition]? with
  | some handle =>
      simp only [upsertSnapshotAtOffset, createdState, named]
      exact ⟨_, .resnapshot named, by simp, persistThen_attempt _ rfl fun _ => ⟨_, rfl⟩⟩
  | none =>
      simp only [upsertSnapshotAtOffset, createdState, named]
      exact ⟨.create _, .create named rfl rfl rfl, Write.create_eq_iff _,
        persistThen_attempt _ rfl fun _ => ⟨_, rfl⟩⟩

theorem lookupOrCreateDefinition_write (manager : Manager σ) (definition : Definition)
    (now : Time) :
    manager.Performs (manager.lookupOrCreateDefinition definition now).2
      (manager.createdState definition now fun state => { state with
        definition := definition
        currentOffset := initialOffset
        lastAccess := now }) := by
  cases named : manager.byHash[canonicalHash definition]? with
  | some handle =>
      simp only [lookupOrCreateDefinition, createdState, named]
      exact ⟨_, .touch named, by simp, persistThen_attempt _ rfl fun _ => ⟨_, rfl⟩⟩
  | none =>
      simp only [lookupOrCreateDefinition, createdState, named]
      exact ⟨.create _, .create named rfl rfl rfl, Write.create_eq_iff _,
        persistThen_attempt _ rfl fun _ => ⟨_, rfl⟩⟩

theorem delete_write (manager : Manager σ) (handle : String) (now : Time) :
    (manager.delete handle now).2 = manager ∨
      manager.Performs (manager.delete handle now).2 none := by
  cases found : manager.byHandle[handle]? with
  | none => simp [delete, found]
  | some state =>
      simp only [delete, found]
      exact .inr ⟨_, .bury found, by simp, persistThen_attempt _ rfl fun _ => ⟨_, rfl⟩⟩

theorem append_write (manager : Manager σ) (handle : String) (messages : List Message)
    (now : Time) :
    (manager.append handle messages now).2 = manager ∨
      manager.Performs (manager.append handle messages now).2 none := by
  cases required : manager.requireActive handle with
  | error error => simp [append, required]
  | ok state =>
      have active := active?_eq_some.mpr (requireActive_eq_ok.mp required)
      have same := State.appendFrom_sameShape messages state 0
      simp only [append, required]
      refine .inr ⟨.put handle _ true, .change active ?_ nofun, by simp,
        persistThen_attempt _ rfl fun _ => ⟨_, rfl⟩⟩
      exact ⟨same.handle, same.hash, same.definition, same.deleted⟩

theorem refreshWithMetadata_write (manager : Manager σ) (handle : String)
    (snapshot : SnapshotResult) (metadata : ChangeMetadata) (now : Time) :
    (manager.refreshWithMetadata handle snapshot metadata now).2 = manager ∨
      manager.Performs (manager.refreshWithMetadata handle snapshot metadata now).2
        none := by
  cases required : manager.requireActive handle with
  | error error => simp [refreshWithMetadata, required]
  | ok state =>
      have active := active?_eq_some.mpr (requireActive_eq_ok.mp required)
      simp only [refreshWithMetadata, required]
      refine .inr ⟨_, .change active (State.refresh_sameShape state snapshot metadata now) ?_,
        by simp, commitRefresh_write manager handle _⟩
      intro silent
      unfold State.refresh at silent ⊢
      rw [logMessages_quiet (by simpa using silent)]
      exact ⟨rfl, rfl⟩

theorem refreshKeysWithMetadata_write (manager : Manager σ) (handle : String)
    (snapshot : SnapshotResult) (keyRows : List Row) (metadata : ChangeMetadata)
    (now : Time) :
    (manager.refreshKeysWithMetadata handle snapshot keyRows metadata now).2 = manager ∨
      manager.Performs
        (manager.refreshKeysWithMetadata handle snapshot keyRows metadata now).2 none := by
  cases required : manager.requireActive handle with
  | error error => simp [refreshKeysWithMetadata, required]
  | ok state =>
      have active := active?_eq_some.mpr (requireActive_eq_ok.mp required)
      cases computed : state.refreshKeys snapshot keyRows metadata now with
      | none => simp [refreshKeysWithMetadata, required, computed]
      | some refreshed =>
          simp only [refreshKeysWithMetadata, required, computed]
          refine .inr ⟨_, .change active (State.refreshKeys_sameShape computed) ?_,
            by simp, commitRefresh_write manager handle refreshed⟩
          intro silent
          unfold State.refreshKeys at computed
          dsimp only at computed
          split at computed
          · cases computed
          · obtain rfl := Option.some.inj computed
            rw [logMessages_quiet (by simpa using silent)]
            exact ⟨rfl, rfl⟩

/-- What a call can do to the manager. -/
theorem perform_cases (manager : Manager σ) (call : Call) :
    (manager.creates call = none ∧ manager.perform call = manager) ∨
      manager.Performs (manager.perform call) (manager.creates call) ∨
      (call.operation = .invalidateAll ∧ manager.Buries (manager.perform call)) ∨
      ∃ relation, call.operation = .invalidateByRelation relation ∧
        manager.perform call = (manager.invalidateByRelation relation call.now).2 := by
  obtain ⟨operation, now⟩ := call
  cases operation with
  | upsertSnapshot definition snapshot =>
      exact .inr (.inl (upsertSnapshotAtOffset_write manager definition snapshot _ now))
  | upsertSnapshotAtOffset definition snapshot currentOffset =>
      exact .inr (.inl (upsertSnapshotAtOffset_write manager definition snapshot _ now))
  | lookupOrCreateDefinition definition =>
      exact .inr (.inl (lookupOrCreateDefinition_write manager definition now))
  | delete handle =>
      exact (delete_write manager handle now).imp (fun same => ⟨rfl, same⟩) .inl
  | invalidateByRelation relation => exact .inr (.inr (.inr ⟨relation, rfl, rfl⟩))
  | invalidateAll =>
      exact .inr (.inr (.inl ⟨rfl, invalidateAllFrom_buries now _ manager []⟩))
  | append handle messages =>
      exact (append_write manager handle messages now).imp (fun same => ⟨rfl, same⟩) .inl
  | refreshWithMetadata handle snapshot metadata =>
      exact (refreshWithMetadata_write manager handle snapshot metadata now).imp
        (fun same => ⟨rfl, same⟩) .inl
  | refreshKeysWithMetadata handle snapshot keyRows metadata =>
      exact (refreshKeysWithMetadata_write manager handle snapshot keyRows metadata
        now).imp (fun same => ⟨rfl, same⟩) .inl

end Manager

end PostgresSync.Shapes
