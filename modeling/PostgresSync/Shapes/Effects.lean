import PostgresSync.Shapes.Catalog

namespace PostgresSync.Shapes

open PostgresSync.Data
open PostgresSync.Storage

/-! What each operation does to the map of shapes. -/

namespace Manager

section Primitives

variable (manager : Manager σ)

@[simp] theorem putState_byHandle (handle other : String) (state : State) :
    (manager.putState handle state).byHandle[other]? =
      if handle = other then some state else manager.byHandle[other]? := by
  simp [putState]

@[simp] theorem putHash_byHandle (hash handle : String) :
    (manager.putHash hash handle).byHandle = manager.byHandle := rfl

@[simp] theorem dropHash_byHandle (hash : String) :
    (manager.dropHash hash).byHandle = manager.byHandle := rfl

@[simp] theorem addRelationLocked_byHandle (relation : Relation)
    (handle : String) :
    (manager.addRelationLocked relation handle).byHandle = manager.byHandle := rfl

@[simp] theorem notifyLocked_byHandle (handle : String) :
    (manager.notifyLocked handle).byHandle = manager.byHandle := rfl

@[simp] theorem offered_byHandle [Store σ] (state : State) :
    (manager.offered state).byHandle = manager.byHandle := rfl

@[simp] theorem register_byHandle (state : State) (other : String) :
    (manager.register state).byHandle[other]? =
      if state.handle = other then some state else manager.byHandle[other]? := by
  simp [register, putState]

@[simp] theorem reinstall_byHandle (hash handle other : String)
    (existing updated : State) :
    (manager.reinstall hash handle existing updated).byHandle[other]? =
      if handle = other then some updated else manager.byHandle[other]? := by
  simp [reinstall]

end Primitives

section Reads

theorem read_error_cases {manager : Manager σ} {handle offset : String}
    {error : ManagerError} (failed : manager.read handle offset = .error error) :
    error = .shapeNotFound ∨ error = .shapeDeleted ∨ error = .offsetOutOfRange := by
  unfold read readLocked at failed
  split at failed
  · exact .inl (Except.error.inj failed).symm
  · split at failed
    · exact .inr (.inl (Except.error.inj failed).symm)
    · split at failed
      · exact .inr (.inr (Except.error.inj failed).symm)
      · split at failed
        · exact .inr (.inr (Except.error.inj failed).symm)
        · cases failed
        · cases failed

theorem read_ok {manager : Manager σ} {handle offset : String}
    {state : State} {messages : List Message}
    (succeeded : manager.read handle offset = .ok (state, messages)) :
    manager.byHandle[handle]? = some state ∧ state.deleted = false := by
  unfold read readLocked at succeeded
  cases found : manager.byHandle[handle]? with
  | none =>
      rw [found] at succeeded
      cases succeeded
  | some held =>
      rw [found] at succeeded
      cases deleted : held.deleted with
      | true => simp [deleted] at succeeded
      | false =>
          simp only [deleted, Bool.false_eq_true, if_false] at succeeded
          split at succeeded
          · cases succeeded
          · split at succeeded
            · cases succeeded
            · obtain ⟨rfl, -⟩ := Prod.mk.inj (Except.ok.inj succeeded)
              exact ⟨rfl, deleted⟩
            · obtain ⟨rfl, -⟩ := Prod.mk.inj (Except.ok.inj succeeded)
              exact ⟨rfl, deleted⟩

end Reads

section Upsert

variable [Digest] [Store σ]
variable (manager : Manager σ) (definition : Definition)
  (snapshot : SnapshotResult) (currentOffset : String) (now : Time)

def upsertTarget : String :=
  (manager.byHash[canonicalHash definition]?).getD
    (newHandle (canonicalHash definition) now)

def upsertState : State :=
  match manager.byHash[canonicalHash definition]? with
  | some handle =>
      (manager.stateAt handle).resnapshot definition snapshot currentOffset now
  | none =>
      (manager.newState (canonicalHash definition) now).resnapshot definition
        snapshot currentOffset now

omit [Store σ] in
theorem upsertState_eq :
    ∃ base : State, manager.upsertState definition snapshot currentOffset now =
      base.resnapshot definition snapshot currentOffset now := by
  unfold upsertState
  split <;> exact ⟨_, rfl⟩

theorem upsertSnapshotAtOffset_of_accepts
    (accepted : manager.Accepts
      (manager.upsertState definition snapshot currentOffset now)) :
    (manager.upsertSnapshotAtOffset definition snapshot currentOffset now).1 =
        .ok (manager.upsertState definition snapshot currentOffset now) ∧
      ∀ handle,
        (manager.upsertSnapshotAtOffset definition snapshot currentOffset
          now).2.byHandle[handle]? =
          if manager.upsertTarget definition now = handle then
            some (manager.upsertState definition snapshot currentOffset now)
          else
            manager.byHandle[handle]? := by
  cases named : manager.byHash[canonicalHash definition]? with
  | some known =>
      simp only [upsertState, named] at accepted ⊢
      simp [upsertSnapshotAtOffset, named, upsertTarget,
        persistThen_of_accepts accepted]
  | none =>
      have handle : ((manager.newState (canonicalHash definition) now).resnapshot
          definition snapshot currentOffset now).handle =
            newHandle (canonicalHash definition) now := rfl
      simp only [upsertState, named] at accepted ⊢
      simp [upsertSnapshotAtOffset, named, upsertTarget,
        persistThen_of_accepts accepted, handle]

theorem upsertSnapshotAtOffset_of_not_accepts
    (refused : ¬manager.Accepts
      (manager.upsertState definition snapshot currentOffset now)) :
    ∃ error, manager.upsertSnapshotAtOffset definition snapshot currentOffset now =
      (.error (.store error),
        manager.offered (manager.upsertState definition snapshot currentOffset now)) := by
  cases named : manager.byHash[canonicalHash definition]? with
  | some known =>
      simp only [upsertState, named] at refused ⊢
      simp only [upsertSnapshotAtOffset, named]
      exact persistThen_of_not_accepts refused
  | none =>
      simp only [upsertState, named] at refused ⊢
      simp only [upsertSnapshotAtOffset, named]
      exact persistThen_of_not_accepts refused

end Upsert

section Tombstones

variable [Store σ]

@[simp] theorem tombstone_deleted (state : State) (now : Time) :
    (state.tombstone now).deleted = true := rfl

variable {manager : Manager σ}

theorem active?_invalidateAllFrom {after : Manager σ} {now : Time}
    {before invalidated : List String} {handles : List String}
    (succeeded : manager.invalidateAllFrom now before handles =
      ((invalidated, .ok ()), after)) (handle : String) :
    after.active? handle =
      if handle ∈ handles then none else manager.active? handle := by
  induction handles generalizing manager before with
  | nil =>
      obtain ⟨-, rfl⟩ := Prod.mk.inj succeeded
      simp
  | cons first rest hypothesis =>
      rw [invalidateAllFrom] at succeeded
      cases found : manager.active? first with
      | none =>
          simp only [found] at succeeded
          rw [hypothesis succeeded]
          by_cases same : handle = first <;> simp [same, found]
      | some state =>
          simp only [found] at succeeded
          cases saved : manager.persistStateLocked (state.tombstone now) with
          | mk result next =>
              cases result with
              | error error => simp [saved] at succeeded
              | ok value =>
                  simp only [saved] at succeeded
                  have kept : next.byHandle = manager.byHandle := by
                    rw [persistStateLocked, Prod.mk.injEq] at saved
                    rw [← saved.2]
                  rw [hypothesis succeeded]
                  by_cases same : first = handle
                  · simp [active?, same]
                  · have other : ¬handle = first := fun equal => same equal.symm
                    simp [active?, same, other, kept]

theorem active?_invalidateAll {after : Manager σ} {now : Time} {invalidated : List String}
    (succeeded : manager.invalidateAll now = ((invalidated, .ok ()), after))
    (handle : String) : after.active? handle = none := by
  rw [active?_invalidateAllFrom succeeded]
  split
  · rfl
  · next absent =>
      rw [Std.ExtTreeMap.mem_keys] at absent
      simp [active?, Std.ExtTreeMap.getElem?_eq_none absent]

theorem delete_outcome (manager : Manager σ) (handle : String) (now : Time) :
    (∃ found, (manager.delete handle now).1 = .ok found ∧
        ∀ other : String, (manager.delete handle now).2.byHandle[other]? =
          if handle = other then manager.byHandle[other]?.map (·.tombstone now)
          else manager.byHandle[other]?) ∨
      ∃ error, (manager.delete handle now).1 = .error (.store error) ∧
        (manager.delete handle now).2.byHandle = manager.byHandle := by
  cases found : manager.byHandle[handle]? with
  | none =>
      refine .inl ⟨false, by simp [delete, found], fun other => ?_⟩
      by_cases same : handle = other
      · subst same
        simp [delete, found]
      · simp [delete, found, same]
  | some state =>
      simp only [delete, found]
      rcases manager.persistThen_cases (state.tombstone now) fun manager =>
          (.ok true, manager.dropHash state.hash
            |>.removeRelationLocked state.definition.relation handle
            |>.putState handle (state.tombstone now)
            |>.notifyLocked handle) with run | ⟨error, run⟩
      · rw [run]
        refine .inl ⟨true, rfl, fun other => ?_⟩
        by_cases same : handle = other
        · subst same
          simp [found]
        · simp [same]
      · rw [run]
        exact .inr ⟨error, rfl, rfl⟩

def invalidatedState (state : State) (key : String)
    (now : Time) : State :=
  if state.deleted = false ∧ state.relationIndex = key then state.tombstone now else state

omit [Store σ] in
theorem installTombstones_byHandle {entries : List (String × State)}
    (distinct : (entries.map (·.1)).Nodup) (manager : Manager σ) (handle : String) :
    (entries.foldl installTombstone manager).byHandle[handle]? =
      ((entries.find? fun entry => entry.1 = handle).map (·.2)).or
        manager.byHandle[handle]? := by
  have installed : (entries.foldl installTombstone manager).byHandle =
      entries.foldl (fun byHandle entry => byHandle.insert entry.1 entry.2)
        manager.byHandle := by
    induction entries generalizing manager with
    | nil => rfl
    | cons entry rest hypothesis => exact hypothesis (List.nodup_cons.mp distinct).2 _
  rw [installed, Dict.getElem?_foldl_insert distinct]

omit [Store σ] in
theorem find?_tombstones (manager : Manager σ) (now : Time) {handles : List String}
    (handle : String) :
    ((manager.tombstones now handles).find? fun entry => entry.1 = handle).map (·.2) =
      if handle ∈ handles then (manager.active? handle).map (·.tombstone now)
      else none := by
  induction handles with
  | nil => simp [tombstones]
  | cons first rest hypothesis =>
      by_cases same : first = handle
      · subst same
        cases looked : manager.active? first with
        | none => simpa [tombstones, looked] using hypothesis
        | some state => simp [tombstones, looked]
      · have other : ¬handle = first := fun equal => same equal.symm
        cases looked : manager.active? first with
        | none => simpa [tombstones, looked, other] using hypothesis
        | some state => simpa [tombstones, looked, same, other] using hypothesis

omit [Store σ] in
theorem tombstones_or_byHandle
    (listed : manager.registry.Listed State.relationIndex State.Active) (key : String)
    (now : Time) (handle : String) :
    (((manager.tombstones now (manager.byRelation.getD key ∅).toList).find?
        fun entry => entry.1 = handle).map (·.2)).or manager.byHandle[handle]? =
      manager.byHandle[handle]?.map (invalidatedState · key now) := by
  have member := listed key handle
  rw [find?_tombstones]
  cases found : manager.byHandle[handle]? with
  | none => simp [active?, found]
  | some state =>
      have indexed : handle ∈ (manager.byRelation.getD key ∅).toList ↔
          state.deleted = false ∧ state.relationIndex = key := by
        refine Std.ExtTreeSet.mem_toList.trans (member.trans ?_)
        simp [registry, found, State.Active]
      by_cases buried : state.deleted = false ∧ state.relationIndex = key
      · have active : manager.active? handle = some state :=
          active?_eq_some.mpr ⟨found, buried.1⟩
        simp [indexed.mpr buried, invalidatedState, buried, active]
      · have unlisted : handle ∉ (manager.byRelation.getD key ∅).toList :=
          fun present => buried (indexed.mp present)
        simp [unlisted, invalidatedState, buried]

theorem invalidateByRelation_outcome
    (listed : manager.registry.Listed State.relationIndex State.Active)
    (relation : Relation) (now : Time) :
    (∃ handles, (manager.invalidateByRelation relation now).1 = .ok handles ∧
        ∀ handle : String, (manager.invalidateByRelation relation now).2.byHandle[handle]? =
          manager.byHandle[handle]?.map
            (invalidatedState · (relationKey relation) now)) ∨
      ∃ error, (manager.invalidateByRelation relation now).1 = .error error ∧
        (manager.invalidateByRelation relation now).2.byHandle = manager.byHandle := by
  have buried := tombstones_or_byHandle listed (relationKey relation) now
  rcases manager.invalidateByRelation_cases relation now with
    ⟨none, nothing⟩ | ⟨store, ⟨error, -, failed⟩ | ⟨-, succeeded⟩⟩
  · rw [nothing]
    refine .inl ⟨[], rfl, fun handle => ?_⟩
    have unchanged := buried handle
    dsimp only [listedHandles] at none
    rwa [none] at unchanged
  · rw [failed]
    exact .inr ⟨error, rfl, rfl⟩
  · rw [succeeded]
    refine .inl ⟨_, rfl, fun handle => ?_⟩
    rw [← buried handle]
    exact installTombstones_byHandle (manager.listedTombstones_nodup relation now) _ handle

end Tombstones

section Refreshes

variable [Store σ]

theorem commitRefresh_outcome (manager : Manager σ) (handle : String)
    (refreshed : State × List Message) :
    ((manager.commitRefresh handle refreshed).1 = .ok refreshed ∧
        ∀ other : String, (manager.commitRefresh handle refreshed).2.byHandle[other]? =
          if handle = other then some refreshed.1 else manager.byHandle[other]?) ∨
      ∃ error, (manager.commitRefresh handle refreshed).1 = .error (.store error) ∧
        (manager.commitRefresh handle refreshed).2.byHandle = manager.byHandle := by
  unfold commitRefresh
  rcases manager.persistThen_cases refreshed.1 fun manager =>
      (Except.ok refreshed,
        if refreshed.2.isEmpty then manager.putState handle refreshed.1
        else (manager.putState handle refreshed.1).notifyLocked handle) with
    run | ⟨error, run⟩
  · rw [run]
    refine .inl ⟨rfl, fun other => ?_⟩
    cases refreshed.2.isEmpty <;> simp
  · rw [run]
    exact .inr ⟨error, rfl, rfl⟩

/-- What `refreshKeysWithMetadata` does to the shapes, by the state it finds. -/
theorem refreshKeysWithMetadata_outcome {manager : Manager σ} {handle : String}
    {state : State} (found : manager.byHandle[handle]? = some state)
    (snapshot : SnapshotResult) (keyRows : List Row) (metadata : ChangeMetadata)
    (now : Time) :
    let outcome := manager.refreshKeysWithMetadata handle snapshot keyRows metadata now
    (state.deleted = true ∧ outcome = (.error .shapeDeleted, manager)) ∨
      (state.deleted = false ∧ state.refreshKeys snapshot keyRows metadata now = none ∧
        outcome = (.ok (state, []), manager)) ∨
      ∃ refreshed, state.deleted = false ∧
        state.refreshKeys snapshot keyRows metadata now = some refreshed ∧
          outcome = manager.commitRefresh handle refreshed := by
  cases deleted : state.deleted with
  | true => exact .inl ⟨rfl, by simp [refreshKeysWithMetadata, requireActive, found, deleted]⟩
  | false =>
      cases computed : state.refreshKeys snapshot keyRows metadata now with
      | none =>
          exact .inr (.inl ⟨rfl, rfl, by
            simp [refreshKeysWithMetadata, requireActive, found, deleted, computed]⟩)
      | some refreshed =>
          exact .inr (.inr ⟨refreshed, rfl, rfl, by
            simp [refreshKeysWithMetadata, requireActive, found, deleted, computed]⟩)

theorem refreshWithMetadata_outcome [Digest] {manager : Manager σ} {handle : String}
    {state : State} (found : manager.byHandle[handle]? = some state)
    (snapshot : SnapshotResult) (metadata : ChangeMetadata) (now : Time) :
    let outcome := manager.refreshWithMetadata handle snapshot metadata now
    (state.deleted = true ∧ outcome = (.error .shapeDeleted, manager)) ∨
      (state.deleted = false ∧
        outcome = manager.commitRefresh handle (state.refresh snapshot metadata now)) := by
  cases deleted : state.deleted with
  | true => exact .inl ⟨rfl, by simp [refreshWithMetadata, requireActive, found, deleted]⟩
  | false => exact .inr ⟨rfl, by simp [refreshWithMetadata, requireActive, found, deleted]⟩

end Refreshes

end Manager

end PostgresSync.Shapes
