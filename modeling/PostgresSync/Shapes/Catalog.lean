import PostgresSync.Data.Registry
import PostgresSync.Data.Run
import PostgresSync.Shapes.Manager

namespace PostgresSync.Shapes

open PostgresSync.Data
open PostgresSync.Storage

/-! The three maps of the manager are a registry of shapes: `byHash` is its tag
index and `byRelation` its group index. -/

namespace State

def relationIndex (state : State) : String :=
  relationKey state.definition.relation

def Active (state : State) : Prop := state.deleted = false

instance (state : State) : Decidable state.Active :=
  inferInstanceAs (Decidable (state.deleted = false))

end State

namespace Manager

def registry (manager : Manager σ) : Registry String State String String where
  records handle := manager.byHandle[handle]?
  byTag hash := manager.byHash[hash]?
  listed key handle := handle ∈ manager.byRelation.getD key ∅

abbrev Edit (strict : Prop) :
    Registry String State String String → Registry String State String String →
      Prop :=
  Registry.Edit State.handle State.hash State.relationIndex State.Active strict

/-- Every operation edits the registry in these ways. -/
abbrev Edits (strict : Prop) :
    Registry String State String String → Registry String State String String →
      Prop :=
  Registry.Edits State.handle State.hash State.relationIndex State.Active strict

end Manager

namespace Manager

section Primitives

variable (manager : Manager σ)

@[simp] theorem registry_store (store : σ) :
    { manager with store := store }.registry = manager.registry := rfl

@[simp] theorem registry_generation (generation : Nat) :
    { manager with generation := generation }.registry = manager.registry := rfl

@[simp] theorem registry_notifyLocked (handle : String) :
    (manager.notifyLocked handle).registry = manager.registry := rfl

@[simp] theorem registry_putState (handle : String) (state : State) :
    (manager.putState handle state).registry =
      manager.registry.setRecord handle state := by
  simp [registry, putState, Registry.setRecord]

@[simp] theorem registry_putHash (hash handle : String) :
    (manager.putHash hash handle).registry =
      manager.registry.setTag hash handle := by
  simp [registry, putHash, Registry.setTag]

@[simp] theorem registry_dropHash (hash : String) :
    (manager.dropHash hash).registry = manager.registry.clearTag hash := by
  simp [registry, dropHash, Registry.clearTag]

theorem mem_addRelationLocked (relation : Relation) (handle key other : String) :
    other ∈ (manager.addRelationLocked relation handle).byRelation.getD key ∅ ↔
      other ∈ manager.byRelation.getD key ∅ ∨
        (key = relationKey relation ∧ other = handle) := by
  by_cases same : relationKey relation = key
  · subst same
    simp only [addRelationLocked, Dict.getD_insert, if_true, StringSet.mem_insert,
      true_and]
    rw [or_comm, eq_comm]
  · have different : key ≠ relationKey relation := fun equal => same equal.symm
    simp [addRelationLocked, same, different]

theorem mem_removeRelationLocked (relation : Relation)
    (handle key other : String) :
    other ∈ (manager.removeRelationLocked relation handle).byRelation.getD key ∅ ↔
      other ∈ manager.byRelation.getD key ∅ ∧
        ¬(key = relationKey relation ∧ other = handle) := by
  unfold removeRelationLocked
  by_cases same : relationKey relation = key
  · subst same
    cases vacant : (manager.byRelation.getD (relationKey relation) ∅).isEmpty with
    | true => simp [vacant, StringSet.not_mem_of_isEmpty vacant]
    | false =>
        have erased : other ∈ (manager.byRelation.getD (relationKey relation) ∅).erase
              handle ↔
            other ∈ manager.byRelation.getD (relationKey relation) ∅ ∧
              ¬other = handle := by
          rw [StringSet.mem_erase, and_comm, ne_comm]
        cases left : ((manager.byRelation.getD (relationKey relation) ∅).erase
          handle).isEmpty with
        | true =>
            have gone := StringSet.not_mem_of_isEmpty left other
            rw [erased] at gone
            simpa [vacant, left] using gone
        | false => simpa [vacant, left] using erased
  · have different : key ≠ relationKey relation := fun equal => same equal.symm
    cases vacant : (manager.byRelation.getD (relationKey relation) ∅).isEmpty with
    | true => simp [vacant, different]
    | false =>
        cases left : ((manager.byRelation.getD (relationKey relation) ∅).erase
          handle).isEmpty <;>
        simp [vacant, left, same, different]

@[simp] theorem removeRelationLocked_byHandle (relation : Relation)
    (handle : String) :
    (manager.removeRelationLocked relation handle).byHandle = manager.byHandle := by
  unfold removeRelationLocked
  dsimp only
  split <;> rfl

@[simp] theorem removeRelationLocked_byHash (relation : Relation)
    (handle : String) :
    (manager.removeRelationLocked relation handle).byHash = manager.byHash := by
  unfold removeRelationLocked
  dsimp only
  split <;> rfl

@[simp] theorem registry_addRelationLocked (relation : Relation)
    (handle : String) :
    (manager.addRelationLocked relation handle).registry =
      manager.registry.list (relationKey relation) handle := by
  simp only [registry, Registry.list, mem_addRelationLocked]
  rfl

@[simp] theorem registry_removeRelationLocked (relation : Relation)
    (handle : String) :
    (manager.removeRelationLocked relation handle).registry =
      manager.registry.unlist (relationKey relation) handle := by
  simp only [registry, Registry.unlist, mem_removeRelationLocked,
    removeRelationLocked_byHandle, removeRelationLocked_byHash]

end Primitives

section Writes

variable [Store σ] {strict : Prop}

@[simp] theorem registry_offered (manager : Manager σ) (state : State) :
    (manager.offered state).registry = manager.registry := rfl

@[simp] theorem active?_offered (manager : Manager σ) (state : State)
    (handle : String) :
    (manager.offered state).active? handle = manager.active? handle := rfl

theorem persistThen_edits {manager : Manager σ} {state : State}
    {next : Manager σ → Outcome σ α}
    (continued : Edits strict manager.registry
      (next (manager.offered state)).2.registry) :
    Edits strict manager.registry (manager.persistThen state next).2.registry := by
  by_cases accepted : manager.Accepts state
  · rw [persistThen_of_accepts accepted]
    exact continued
  · obtain ⟨error, refused⟩ : ∃ error, manager.persistThen state next =
        (.error (.store error), manager.offered state) :=
      persistThen_of_not_accepts accepted
    rw [refused]
    exact .refl

end Writes

theorem stateAt_of_records {manager : Manager σ} {handle : String}
    {state : State} (found : manager.registry.records handle = some state) :
    manager.stateAt handle = state := by
  have present : manager.byHandle[handle]? = some state := found
  simp [stateAt, Std.ExtTreeMap.getD_eq_getD_getElem?, present]

section Shared

variable {strict : Prop} {manager : Manager σ}

variable {state : State} {handle : String}

theorem register_edit (manager : Manager σ) (fresh : manager.byHandle[state.handle]? = none)
    (unused : manager.byHash[state.hash]? = none) (active : state.Active) :
    Edits strict manager.registry (manager.register state).registry := by
  have edit : Edit strict manager.registry _ := .register state rfl fresh unused active
  simpa [register, State.relationIndex] using Relation.ReflTransGen.single edit

theorem replace_edit (manager : Manager σ) {old new : State}
    (found : manager.byHandle[handle]? = some old) (same : new.SameShape old) :
    Edits strict manager.registry (manager.putState handle new).registry := by
  have edit : Edit strict manager.registry _ := .replace new found same.handle same.hash
    (by simp [State.relationIndex, same.definition])
    (by simp [State.Active, same.deleted])
  simpa using Relation.ReflTransGen.single edit

theorem active?_eq_some :
    manager.active? handle = some state ↔
      manager.byHandle[handle]? = some state ∧ state.Active := by
  simp [active?, Option.filter_eq_some_iff, State.Active]

theorem requireActive_eq_ok :
    manager.requireActive handle = .ok state ↔
      manager.byHandle[handle]? = some state ∧ state.Active := by
  unfold requireActive State.Active
  cases found : manager.byHandle[handle]? with
  | none => simp
  | some other =>
      cases deleted : other.deleted with
      | true =>
          simp only [deleted, if_true, reduceCtorEq, Option.some.injEq, false_iff]
          rintro ⟨rfl, active⟩
          simp [deleted] at active
      | false =>
          simp only [deleted, Bool.false_eq_true, if_false, Except.ok.injEq,
            Option.some.injEq]
          exact ⟨fun equal => ⟨equal, equal ▸ deleted⟩, fun facts => facts.1⟩

theorem bury_edit {old : State} (new : State) (found : manager.byHandle[handle]? = some old)
    (active : old.Active)
    (dead : new.deleted = true) (sameHandle : new.handle = old.handle) :
    Edits strict manager.registry
      (((manager.registry.clearTag old.hash).unlist old.relationIndex
        handle).setRecord handle new) :=
  .single (.bury new found (by simp [State.Active, dead]) sameHandle
    (fun _ => .inl active))

def tombstones (manager : Manager σ) (now : Time) (handles : List String) :
    List (String × State) :=
  handles.filterMap fun handle =>
    (manager.active? handle).map fun state => (handle, state.tombstone now)

def listedHandles (manager : Manager σ) (relation : Relation) : List String :=
  (manager.byRelation.getD (relationKey relation) ∅).toList

variable {now : Time} {handles : List String}

theorem tombstones_cons_none {handle : String} (looked : manager.active? handle = none) :
    manager.tombstones now (handle :: handles) = manager.tombstones now handles := by
  simp [tombstones, looked]

theorem tombstones_cons_some {handle : String} {state : State}
    (looked : manager.active? handle = some state) :
    manager.tombstones now (handle :: handles) =
      (handle, state.tombstone now) :: manager.tombstones now handles := by
  simp [tombstones, looked]

theorem mem_tombstones {entry : String × State} :
    entry ∈ manager.tombstones now handles ↔
      entry.1 ∈ handles ∧ ∃ state, manager.byHandle[entry.1]? = some state ∧
        state.Active ∧ entry.2 = state.tombstone now := by
  simp only [tombstones, List.mem_filterMap, Option.map_eq_some_iff,
    active?_eq_some]
  constructor
  · rintro ⟨handle, member, state, ⟨found, active⟩, rfl⟩
    exact ⟨member, state, found, active, rfl⟩
  · rintro ⟨member, state, found, active, equal⟩
    exact ⟨entry.1, member, state, ⟨found, active⟩, by rw [← equal]⟩

theorem tombstones_nodup (distinct : handles.Nodup) :
    ((manager.tombstones now handles).map (·.1)).Nodup := by
  refine List.Nodup.sublist ?_ distinct
  induction handles with
  | nil => exact .slnil
  | cons handle rest hypothesis =>
      have sublist := hypothesis distinct.of_cons
      cases looked : manager.active? handle with
      | none =>
          rw [tombstones_cons_none looked]
          exact sublist.cons handle
      | some state =>
          rw [tombstones_cons_some looked]
          exact sublist.cons_cons handle

theorem listedTombstones_nodup (manager : Manager σ) (relation : Relation) (now : Time) :
    ((manager.tombstones now (manager.listedHandles relation)).map (·.1)).Nodup :=
  tombstones_nodup (StringSet.nodup_toList _)

/-- The second loop of `InvalidateByRelation` buries its shapes one by one,
except that it leaves them listed. -/
theorem installTombstones_edits {key : String} (entries : List (String × State)) :
    ∀ (manager : Manager σ) (registry : Registry String State String String),
      registry.records = manager.registry.records →
      registry.byTag = manager.registry.byTag →
      (entries.map (·.1)).Nodup →
      (∀ entry ∈ entries, ∃ state, manager.byHandle[entry.1]? = some state ∧
        state.Active ∧ state.relationIndex = key ∧
          entry.2 = state.tombstone now) →
      ∃ result, Edits strict registry result ∧
        result.records = (entries.foldl installTombstone manager).registry.records ∧
        result.byTag = (entries.foldl installTombstone manager).registry.byTag ∧
        ∀ group handle, result.listed group handle ↔
          registry.listed group handle ∧
            ¬(group = key ∧ handle ∈ entries.map (·.1)) := by
  induction entries with
  | nil =>
      intro manager registry sameRecords sameTags _ _
      exact ⟨registry, .refl, sameRecords, sameTags, by simp⟩
  | cons entry rest hypothesis =>
      intro manager registry sameRecords sameTags distinct known
      obtain ⟨state, found, active, grouped, tombstone⟩ := known entry (by simp)
      rw [List.map_cons, List.nodup_cons] at distinct
      have buried : Edits strict registry
          (((registry.clearTag state.hash).unlist state.relationIndex
            entry.1).setRecord entry.1 entry.2) :=
        .single (.bury entry.2 (by rw [sameRecords]; exact found)
          (by simp [State.Active, tombstone, State.tombstone])
          (by rw [tombstone]; rfl) (fun _ => .inl active))
      have hash : entry.2.hash = state.hash := by rw [tombstone]; rfl
      obtain ⟨result, edits, records, tags, listed⟩ := hypothesis
        (manager.installTombstone entry)
        (((registry.clearTag state.hash).unlist state.relationIndex
            entry.1).setRecord entry.1 entry.2)
        (by
          simp [installTombstone, Registry.setRecord, Registry.clearTag,
            Registry.unlist, sameRecords])
        (by
          simp [installTombstone, Registry.setRecord, Registry.clearTag,
            Registry.unlist, sameTags, hash])
        distinct.2
        (by
          intro other member
          obtain ⟨held, present, facts⟩ := known other (by simp [member])
          have different : entry.1 ≠ other.1 := by
            intro equal
            exact distinct.1 (equal ▸ List.mem_map_of_mem member)
          refine ⟨held, ?_, facts⟩
          simpa [installTombstone, dropHash, putState, notifyLocked, different]
            using present)
      refine ⟨result, buried.trans edits, records, tags, ?_⟩
      intro group handle
      rw [listed]
      simp only [Registry.setRecord, Registry.unlist, Registry.clearTag, grouped,
        List.map_cons, List.mem_cons]
      tauto

@[simp] theorem installTombstones_byRelation (entries : List (String × State)) :
    ∀ manager : Manager σ,
      (entries.foldl installTombstone manager).byRelation = manager.byRelation := by
  induction entries with
  | nil => intro manager; rfl
  | cons entry rest hypothesis => intro manager; exact hypothesis _

theorem loadState_edits {state : State}
    (fresh : manager.byHandle[state.handle]? = none)
    (unused : state.Active → manager.byHash[state.hash]? = none) :
    Edits strict manager.registry (manager.loadState state).registry := by
  unfold loadState
  cases deleted : state.deleted with
  | true =>
      have edit : Edit strict manager.registry _ :=
        .deposit state rfl fresh (by simp [State.Active, deleted])
      simpa using Relation.ReflTransGen.single edit
  | false =>
      have edits : Edits strict _ _ :=
        register_edit manager fresh (unused deleted) deleted
      simpa [register] using edits

end Shared

section Removal

variable [Store σ] {strict : Prop} {manager : Manager σ}

theorem delete_edits {handle : String} {now : Time}
    (released : strict → ∀ state, manager.byHandle[handle]? = some state →
      manager.Accepts (state.tombstone now) →
        state.Active ∨ manager.byHash[state.hash]? = none) :
    Edits strict manager.registry (manager.delete handle now).2.registry := by
  cases found : manager.byHandle[handle]? with
  | none =>
      simp only [delete, found]
      exact .refl
  | some state =>
      simp only [delete, found]
      by_cases accepted : manager.Accepts (state.tombstone now)
      · rw [persistThen_of_accepts accepted]
        have edit : Edit strict manager.registry _ := .bury (state.tombstone now) found
          (by simp [State.Active, State.tombstone]) rfl
          (fun isStrict => released isStrict state found accepted)
        simpa [State.relationIndex] using Relation.ReflTransGen.single edit
      · obtain ⟨error, refused⟩ := persistThen_of_not_accepts accepted
        rw [refused]
        exact .refl

theorem commitRefresh_edits {handle : String} {state : State}
    {refreshed : State × List Message}
    (found : manager.byHandle[handle]? = some state)
    (same : refreshed.1.SameShape state) :
    Edits strict manager.registry
      (manager.commitRefresh handle refreshed).2.registry := by
  refine persistThen_edits ?_
  have edits : Edits strict _ _ := replace_edit (manager.offered refreshed.1) found same
  dsimp only
  split <;> simpa using edits

theorem invalidateAllFrom_edits {now : Time} (handles : List String) :
    ∀ (manager : Manager σ) (invalidated : List String),
      Edits strict manager.registry
        (manager.invalidateAllFrom now invalidated handles).2.registry := by
  induction handles with
  | nil => intro manager invalidated; exact .refl
  | cons handle rest hypothesis =>
      intro manager invalidated
      unfold invalidateAllFrom
      cases looked : manager.active? handle with
      | none => exact hypothesis manager invalidated
      | some state =>
          obtain ⟨found, active⟩ := active?_eq_some.mp looked
          dsimp only [persistStateLocked]
          cases (Store.saveShape manager.store (marshalState (state.tombstone now))).1 with
          | error error => exact .refl
          | ok value =>
              cases value
              have others := hypothesis
                ((((manager.offered (state.tombstone now)).removeRelationLocked
                  state.definition.relation handle).dropHash
                    (state.tombstone now).hash).putState handle
                      (state.tombstone now) |>.notifyLocked handle)
                (invalidated ++ [handle])
              rw [registry_notifyLocked, registry_putState, registry_dropHash,
                registry_removeRelationLocked, registry_offered] at others
              exact .trans (bury_edit (state.tombstone now) found active rfl rfl)
                others

/-- The first loop of `InvalidateByRelation` changes only the store; if it gets through, it has
saved the tombstones of all active shapes. -/
theorem persistTombstones_cases (now : Time) (handles : List String) (manager : Manager σ) :
    ∃ store, manager.persistTombstones now handles =
        (.ok (manager.tombstones now handles), { manager with store := store }) ∨
      ∃ error, manager.persistTombstones now handles =
        (.error error, { manager with store := store }) := by
  induction handles generalizing manager with
  | nil => exact ⟨manager.store, .inl rfl⟩
  | cons handle rest hypothesis =>
      rw [persistTombstones]
      cases looked : manager.active? handle with
      | none =>
          rw [tombstones_cons_none looked]
          exact hypothesis manager
      | some state =>
          rw [tombstones_cons_some looked]
          dsimp only
          by_cases accepted : manager.Accepts (state.tombstone now)
          · rw [persistThen_of_accepts accepted]
            obtain ⟨store, saved | ⟨error, failed⟩⟩ :=
              hypothesis (manager.offered (state.tombstone now))
            · rw [saved]
              exact ⟨store, .inl rfl⟩
            · rw [failed]
              exact ⟨store, .inr ⟨error, rfl⟩⟩
          · obtain ⟨error, refused⟩ := persistThen_of_not_accepts accepted
            rw [refused]
            exact ⟨_, .inr ⟨_, rfl⟩⟩

/-- `InvalidateByRelation` has nothing to do, or stops at an error with only the
store changed, or has saved every tombstone and installs them all. -/
theorem invalidateByRelation_cases (manager : Manager σ) (relation : Relation)
    (now : Time) :
    let handles := manager.listedHandles relation
    let entries := manager.tombstones now handles
    (entries = [] ∧ manager.invalidateByRelation relation now = (.ok [], manager)) ∨
      ∃ store,
        (∃ error,
          manager.persistTombstones now handles =
              (.error error, { manager with store := store }) ∧
            manager.invalidateByRelation relation now =
              (.error error, { manager with store := store })) ∨
        (manager.persistTombstones now handles =
            (.ok entries, { manager with store := store }) ∧
          manager.invalidateByRelation relation now =
            (.ok (entries.map (·.1)),
              { entries.foldl installTombstone { manager with store := store } with
                byRelation := manager.byRelation.erase (relationKey relation) })) := by
  dsimp only [listedHandles]
  unfold invalidateByRelation
  dsimp only
  split
  · next vacant =>
      refine .inl ⟨?_, rfl⟩
      rw [Std.ExtTreeSet.isEmpty_iff.mp vacant]
      rfl
  · obtain ⟨store, saved | ⟨error, failed⟩⟩ := manager.persistTombstones_cases now
      (manager.byRelation.getD (relationKey relation) ∅).toList
    · refine .inr ⟨store, .inr ⟨saved, ?_⟩⟩
      rw [saved]
      simp only [installTombstones_byRelation]
    · refine .inr ⟨store, .inl ⟨error, failed, ?_⟩⟩
      rw [failed]

theorem invalidateByRelation_edits {relation : Relation} {now : Time}
    (indexed : manager.registry.Listed State.relationIndex State.Active) :
    Edits strict manager.registry
      (manager.invalidateByRelation relation now).2.registry := by
  rcases manager.invalidateByRelation_cases relation now with
    ⟨-, nothing⟩ | ⟨store, ⟨error, -, failed⟩ | ⟨-, succeeded⟩⟩
  · rw [nothing]
  · rw [failed]
    exact .refl
  · rw [succeeded]
    have known : ∀ entry ∈ manager.tombstones now (manager.listedHandles relation), ∃ state,
        manager.byHandle[entry.1]? = some state ∧ state.Active ∧
          state.relationIndex = relationKey relation ∧
            entry.2 = state.tombstone now := by
      intro entry member
      obtain ⟨listed, state, found, active, equal⟩ := mem_tombstones.mp member
      obtain ⟨held, present, _, grouped⟩ :=
        (indexed (relationKey relation) entry.1).mp
          (Std.ExtTreeSet.mem_toList.mp listed)
      obtain rfl : state = held := by
        have same : manager.byHandle[entry.1]? = some held := present
        rw [found] at same
        exact Option.some.inj same
      exact ⟨state, found, active, grouped, equal⟩
    obtain ⟨result, edits, records, tags, listed⟩ :=
      installTombstones_edits (manager.tombstones now (manager.listedHandles relation))
        { manager with store := store } manager.registry rfl rfl
        (manager.listedTombstones_nodup relation now) known
    refine Eq.subst (motive := fun final => Edits strict manager.registry final)
      (?_ : result = _) edits
    refine Registry.ext records tags ?_
    funext group handle
    refine propext ((listed group handle).trans ?_)
    by_cases same : relationKey relation = group
    · subst same
      have covered : manager.registry.listed (relationKey relation) handle →
          handle ∈ (manager.tombstones now (manager.listedHandles relation)).map (·.1) := by
        intro member
        obtain ⟨state, found, active, -⟩ := (indexed _ handle).mp member
        refine List.mem_map.mpr ⟨(handle, state.tombstone now), ?_, rfl⟩
        exact mem_tombstones.mpr ⟨Std.ExtTreeSet.mem_toList.mpr member,
          state, found, active, rfl⟩
      simp only [registry, Dict.getD_erase, if_true, true_and]
      refine iff_of_false (fun facts => facts.2 (covered facts.1)) ?_
      exact Std.ExtTreeSet.not_mem_empty
    · have different : group ≠ relationKey relation := fun equal => same equal.symm
      simp [registry, same, different]

end Removal

section Operations

variable [Digest] [Store σ] {strict : Prop} {manager : Manager σ}

def FreshHandle (manager : Manager σ) (definition : Definition) (now : Time) :
    Prop :=
  manager.byHash[canonicalHash definition]? = none →
    manager.byHandle[newHandle (canonicalHash definition) now]? = none

variable {snapshot : SnapshotResult} {now : Time} {handle : String}

theorem upsertSnapshotAtOffset_edits {definition : Definition} {currentOffset : String}
    (sound : manager.registry.TagSound State.hash State.Active)
    (fresh : manager.FreshHandle definition now) :
    Edits strict manager.registry
      (manager.upsertSnapshotAtOffset definition snapshot currentOffset
        now).2.registry := by
  cases named : manager.byHash[canonicalHash definition]? with
  | some handle =>
      obtain ⟨state, found, active, hashed⟩ := sound _ handle named
      simp only [upsertSnapshotAtOffset, named, stateAt_of_records found]
      refine persistThen_edits (.single ?_)
      have edit : Edit strict manager.registry _ :=
        .reissue (state.resnapshot definition snapshot currentOffset now) found
          active rfl rfl rfl
      rw [show (state.resnapshot definition snapshot currentOffset now).hash =
        canonicalHash definition from hashed] at edit
      simpa [reinstall, State.relationIndex] using edit
  | none =>
      simp only [upsertSnapshotAtOffset, named]
      exact persistThen_edits (register_edit (manager.offered _)
        (fresh named) named rfl)

theorem lookupOrCreateDefinition_edits {definition : Definition}
    (sound : manager.registry.TagSound State.hash State.Active)
    (fresh : manager.FreshHandle definition now) :
    Edits strict manager.registry
      (manager.lookupOrCreateDefinition definition now).2.registry := by
  cases named : manager.byHash[canonicalHash definition]? with
  | some handle =>
      obtain ⟨state, found, -, -⟩ := sound _ handle named
      simp only [lookupOrCreateDefinition, named, stateAt_of_records found]
      exact persistThen_edits (replace_edit (manager.offered _) found
        ⟨rfl, rfl, rfl, rfl⟩)
  | none =>
      simp only [lookupOrCreateDefinition, named]
      exact persistThen_edits (register_edit (manager.offered _)
        (fresh named) named rfl)

omit [Digest] in
theorem append_edits {messages : List Message} :
    Edits strict manager.registry (manager.append handle messages now).2.registry := by
  unfold append
  cases required : manager.requireActive handle with
  | error error => exact .refl
  | ok state =>
      obtain ⟨found, -⟩ := requireActive_eq_ok.mp required
      have same := State.appendFrom_sameShape messages state 0
      exact persistThen_edits (replace_edit (manager.offered _) found
        ⟨same.handle, same.hash, same.definition, same.deleted⟩)

theorem refreshWithMetadata_edits {metadata : ChangeMetadata} :
    Edits strict manager.registry
      (manager.refreshWithMetadata handle snapshot metadata now).2.registry := by
  unfold refreshWithMetadata
  cases required : manager.requireActive handle with
  | error error => exact .refl
  | ok state =>
      obtain ⟨found, -⟩ := requireActive_eq_ok.mp required
      exact commitRefresh_edits found (State.refresh_sameShape _ _ _ _)

omit [Digest] in
theorem refreshKeysWithMetadata_edits {keyRows : List Row}
    {metadata : ChangeMetadata} :
    Edits strict manager.registry
      (manager.refreshKeysWithMetadata handle snapshot keyRows metadata
        now).2.registry := by
  unfold refreshKeysWithMetadata
  cases required : manager.requireActive handle with
  | error error => exact .refl
  | ok state =>
      obtain ⟨found, -⟩ := requireActive_eq_ok.mp required
      dsimp only
      cases computed : state.refreshKeys snapshot keyRows metadata now with
      | none => exact .refl
      | some refreshed =>
          exact commitRefresh_edits found (State.refreshKeys_sameShape computed)

end Operations

end Manager

end PostgresSync.Shapes
