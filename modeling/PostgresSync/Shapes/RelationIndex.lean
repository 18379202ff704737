import PostgresSync.Shapes.Tombstones

namespace PostgresSync.Shapes

open PostgresSync.Data
open PostgresSync.Storage

/-! What the relation index promises to the readers of a relation. -/

section ActiveShapes

variable {manager : Manager σ}

theorem mem_activeStates (named : manager.registry.Named State.handle) {state : State} :
    state ∈ manager.activeStates ↔ manager.active? state.handle = some state := by
  rw [Manager.activeStates, List.mem_insertionSort, List.mem_filter, Dict.mem_values,
    Manager.active?_eq_some]
  constructor
  · rintro ⟨⟨handle, found⟩, active⟩
    obtain rfl := named handle state found
    exact ⟨found, by simpa [State.Active] using active⟩
  · rintro ⟨found, active⟩
    exact ⟨⟨state.handle, found⟩, by simpa [State.Active] using active⟩

def HandleOrdered (states : List State) : Prop :=
  states.Pairwise fun left right => left.handle < right.handle

theorem insertionSort_handleOrdered {states : List State}
    (distinct : (states.map (·.handle)).Nodup) :
    HandleOrdered (states.insertionSort fun left right => left.handle ≤ right.handle) := by
  have sorted := List.pairwise_insertionSort
    (fun left right : State => left.handle ≤ right.handle) states
  have apart : (states.insertionSort fun left right =>
      left.handle ≤ right.handle).Pairwise fun left right => left.handle ≠ right.handle := by
    rw [← List.pairwise_map (f := State.handle) (R := (· ≠ ·))]
    exact ((List.perm_insertionSort _ states).map _).nodup_iff.mpr distinct
  exact (sorted.and apart).imp fun facts => lt_of_le_of_ne facts.1 facts.2

theorem activeStates_handleOrdered (named : manager.registry.Named State.handle) :
    HandleOrdered manager.activeStates := by
  refine insertionSort_handleOrdered ?_
  have values : manager.byHandle.values.map (·.handle) = manager.byHandle.keys := by
    rw [Dict.values_eq, List.map_map, ← Std.ExtTreeMap.map_fst_toList_eq_keys]
    refine List.map_congr_left fun entry member => ?_
    exact named entry.1 entry.2 (Std.ExtTreeMap.mem_toList_iff_getElem?_eq_some.mp member)
  have keys : manager.byHandle.keys.Nodup := by
    rw [← Std.ExtTreeMap.map_fst_toList_eq_keys, List.Nodup, List.pairwise_map]
    exact Std.ExtTreeMap.distinct_keys_toList.imp fun apart same => apart (by simp [same])
  rw [← values] at keys
  exact keys.sublist (List.filter_sublist.map _)

theorem HandleOrdered.eq_of_mem_iff {left right : List State}
    (leftOrdered : HandleOrdered left) (rightOrdered : HandleOrdered right)
    (same : ∀ state, state ∈ left ↔ state ∈ right) : left = right := by
  have irreflexive : Std.Irrefl fun left right : State => left.handle < right.handle :=
    ⟨fun state => lt_irrefl state.handle⟩
  have antisymmetric : Std.Antisymm fun left right : State => left.handle < right.handle :=
    ⟨fun _ _ below above => absurd above below.not_gt⟩
  exact List.Pairwise.eq_of_mem_iff leftOrdered rightOrdered same

theorem mem_activeByRelation (indexed : manager.Indexed) {relation : Relation}
    {state : State} :
    state ∈ manager.activeByRelation relation ↔
      manager.active? state.handle = some state ∧
        state.relationIndex = relationKey relation := by
  rw [Manager.activeByRelation, List.mem_insertionSort, List.mem_filterMap]
  constructor
  · rintro ⟨handle, member, active⟩
    obtain ⟨found, alive⟩ := Manager.active?_eq_some.mp active
    obtain rfl := indexed.named handle state found
    obtain ⟨held, present, -, grouped⟩ := (indexed.listed _ _).mp
      (Std.ExtTreeSet.mem_toList.mp member)
    obtain rfl : state = held := Option.some.inj (found.symm.trans present)
    exact ⟨active, grouped⟩
  · rintro ⟨active, grouped⟩
    obtain ⟨found, alive⟩ := Manager.active?_eq_some.mp active
    exact ⟨state.handle, Std.ExtTreeSet.mem_toList.mpr
      ((indexed.listed _ _).mpr ⟨state, found, alive, grouped⟩), active⟩

theorem activeByRelation_handleOrdered (indexed : manager.Indexed) (relation : Relation) :
    HandleOrdered (manager.activeByRelation relation) := by
  apply insertionSort_handleOrdered
  have handles : ∀ handles : List String, handles.Nodup →
      ((handles.filterMap manager.active?).map (·.handle)).Nodup := by
    intro handles distinct
    refine distinct.sublist ?_
    clear distinct
    induction handles with
    | nil => exact .refl _
    | cons handle rest hypothesis =>
        cases looked : manager.active? handle with
        | none => simpa [looked] using hypothesis.cons handle
        | some state =>
            have named : state.handle = handle :=
              indexed.named handle state (Manager.active?_eq_some.mp looked).1
            simpa [looked, named] using hypothesis
  exact handles _ (StringSet.nodup_toList _)

end ActiveShapes

namespace Manager

theorem Indexed.loadPersisted [Store σ] {shapes : List PersistedShape} :
    ∀ {manager : Manager σ}, manager.Indexed → (shapes.map (·.handle)).Nodup →
      (∀ shape ∈ shapes, manager.byHandle[shape.handle]? = none) →
        (manager.loadPersisted shapes).2.Indexed := by
  induction shapes with
  | nil =>
      intro manager indexed _ _
      exact indexed
  | cons shape rest hypothesis =>
      intro manager indexed distinct fresh
      obtain ⟨own, others⟩ := List.nodup_cons.mp distinct
      have continues : ∀ (next : Manager σ) (state : State), next.Indexed →
          next.byHandle = manager.byHandle → state.handle = shape.handle →
            ((next.loadState state).loadPersisted rest).2.Indexed := by
        intro next state indexed same named
        have unloaded : next.byHandle[state.handle]? = none := by
          rw [same, named]
          exact fresh shape List.mem_cons_self
        apply hypothesis (indexed.loadState unloaded) others
        intro other member
        have apart : state.handle ≠ other.handle := by
          rw [named]
          intro equal
          exact own (List.mem_map.mpr ⟨other, member, equal.symm⟩)
        rw [loadState_byHandle apart, same]
        exact fresh other (List.mem_cons_of_mem shape member)
      unfold Manager.loadPersisted
      cases decoded : unmarshalState shape with
      | some state =>
          exact continues manager state indexed rfl (unmarshalState_identity decoded).1
      | none =>
          have offered : (manager.offered (corruptState shape)).Indexed :=
            indexed.edits (by rw [registry_offered])
          dsimp only
          rcases manager.persistThen_cases (corruptState shape) fun manager =>
              (manager.loadState (corruptState shape)).loadPersisted rest with
            run | ⟨error, run⟩
          · rw [run]
            exact continues _ (corruptState shape) offered rfl rfl
          · rw [run]
            exact offered

end Manager

/-- The managers that exist: new ones, over any records of different handles, and what calls
make of them while new shapes take unused handles. -/
inductive Arises [Digest] [Store σ] : Manager σ → Prop
  | loaded {store : σ} {shapes : List PersistedShape}
      (read : Store.loadShapes store = .ok shapes) (distinct : (shapes.map (·.handle)).Nodup) :
      Arises (Manager.newManager store).2
  | called {manager : Manager σ} (arises : Arises manager) (call : Call)
      (fresh : manager.TakesFreshHandle call) : Arises (manager.perform call)

theorem Arises.indexed [Digest] [Store σ] {manager : Manager σ} (arises : Arises manager) :
    manager.Indexed := by
  induction arises with
  | @loaded store shapes read distinct =>
      rw [Manager.newManager, read]
      exact (Manager.Indexed.empty store).loadPersisted distinct (by simp)
  | called _ call fresh indexed => exact indexed.perform fresh

/-- The lookup and the invalidation of a relation meet exactly its active shapes. -/
structure RelationExact [Store σ] (manager : Manager σ) (relation : Relation) : Prop where
  active : ∀ state, state ∈ manager.activeByRelation relation ↔
    manager.active? state.handle = some state ∧ state.definition.relation = relation
  ordered : HandleOrdered (manager.activeByRelation relation)
  returned : ∀ now handles, (manager.invalidateByRelation relation now).1 = .ok handles →
    handles.Nodup ∧ ∀ handle, handle ∈ handles ↔
      ∃ state, manager.active? handle = some state ∧ state.definition.relation = relation
  buried : ∀ now handles, (manager.invalidateByRelation relation now).1 = .ok handles →
    ∀ handle : String, (manager.invalidateByRelation relation now).2.byHandle[handle]? =
      manager.byHandle[handle]?.map fun state =>
        if state.deleted = false ∧ state.definition.relation = relation then
          state.tombstone now
        else
          state

theorem mem_tombstones_handles [Store σ] {manager : Manager σ} (indexed : manager.Indexed)
    (relation : Relation) (now : Time) (handle : String) :
    handle ∈ (manager.tombstones now (manager.listedHandles relation)).map (·.1) ↔
      ∃ state, manager.active? handle = some state ∧
        state.relationIndex = relationKey relation := by
  have listed := indexed.listed (relationKey relation) handle
  rw [List.mem_map]
  constructor
  · intro ⟨entry, member, same⟩
    obtain ⟨named, state, found, active, -⟩ := Manager.mem_tombstones.mp member
    rw [same] at named found
    obtain ⟨held, present, -, grouped⟩ := listed.mp (Std.ExtTreeSet.mem_toList.mp named)
    obtain rfl : state = held := Option.some.inj (found.symm.trans present)
    exact ⟨state, Manager.active?_eq_some.mpr ⟨found, active⟩, grouped⟩
  · intro ⟨state, looked, grouped⟩
    obtain ⟨found, active⟩ := Manager.active?_eq_some.mp looked
    refine ⟨(handle, state.tombstone now), Manager.mem_tombstones.mpr ⟨?_, ?_⟩, rfl⟩
    · exact Std.ExtTreeSet.mem_toList.mpr (listed.mpr ⟨state, found, active, grouped⟩)
    · exact ⟨state, found, active, rfl⟩

/-- The index meets exactly the shapes of a relation when the text of the relation, its two
names with a dot between them, is the text of no other relation of an active shape. -/
theorem relationIndex_exact_iff [Digest] [Store σ] {manager : Manager σ}
    (arises : Arises manager) (relation : Relation) :
    RelationExact manager relation ↔
      ∀ handle state, manager.active? handle = some state →
        relationKey state.definition.relation = relationKey relation →
          state.definition.relation = relation := by
  have indexed := arises.indexed
  constructor
  · intro exact handle state active same
    obtain rfl : state.handle = handle :=
      indexed.named handle state (Manager.active?_eq_some.mp active).1
    exact ((exact.active state).mp ((mem_activeByRelation indexed).mpr ⟨active, same⟩)).2
  · intro apart
    have grouped : ∀ handle state, manager.active? handle = some state →
        (state.relationIndex = relationKey relation ↔
          state.definition.relation = relation) := by
      intro handle state active
      refine ⟨apart handle state active, fun same => ?_⟩
      rw [State.relationIndex, same]
    have handles : ∀ now handle,
        handle ∈ (manager.tombstones now (manager.listedHandles relation)).map (·.1) ↔
          ∃ state, manager.active? handle = some state ∧
            state.definition.relation = relation := by
      intro now handle
      rw [mem_tombstones_handles indexed]
      exact exists_congr fun state => and_congr_right fun active => grouped handle state active
    refine ⟨?_, activeByRelation_handleOrdered indexed relation, ?_, ?_⟩
    · intro state
      rw [mem_activeByRelation indexed]
      exact and_congr_right fun active => grouped state.handle state active
    · intro now returned succeeded
      rcases manager.invalidateByRelation_cases relation now with
        ⟨none, nothing⟩ | ⟨store, ⟨error, -, failed⟩ | ⟨-, buried⟩⟩
      · rw [nothing] at succeeded
        obtain rfl := Except.ok.inj succeeded
        refine ⟨List.nodup_nil, fun handle => ?_⟩
        rw [← handles now, none]
        rfl
      · rw [failed] at succeeded
        cases succeeded
      · rw [buried] at succeeded
        obtain rfl := Except.ok.inj succeeded
        exact ⟨Manager.tombstones_nodup (StringSet.nodup_toList _), handles now⟩
    · intro now returned succeeded handle
      rcases Manager.invalidateByRelation_outcome indexed.listed relation now with
        ⟨-, -, buried⟩ | ⟨error, failed, -⟩
      · rw [buried handle]
        cases found : manager.byHandle[handle]? with
        | none => rfl
        | some state =>
            refine congrArg some ?_
            refine if_congr (and_congr_right fun active => ?_) rfl rfl
            exact grouped handle state (Manager.active?_eq_some.mpr ⟨found, active⟩)
      · rw [failed] at succeeded
        cases succeeded

theorem relationIndex_exact_items :
    RelationExact (itemsManagerOver newMemoryStore) ⟨"public", "items"⟩ := by
  have arises := @Arises.called _ tabulatedDigest _ _
    (@Arises.loaded _ tabulatedDigest _ newMemoryStore [] rfl List.nodup_nil)
    ⟨.upsertSnapshot itemsDefinition ⟨itemsSchema, [itemRow "1" "one"], none⟩, 1000⟩
    (by decide +kernel)
  refine (@relationIndex_exact_iff _ tabulatedDigest _ (itemsManagerOver newMemoryStore) arises
    ⟨"public", "items"⟩).mpr fun handle state active _ => ?_
  have all : ∀ entry ∈ (itemsManagerOver newMemoryStore).byHandle.toList,
      entry.2.definition.relation = ⟨"public", "items"⟩ := by
    decide +kernel
  exact all (handle, state) (Std.ExtTreeMap.mem_toList_iff_getElem?_eq_some.mpr
    (Manager.active?_eq_some.mp active).1)

section Dotted

/-- Two tables whose names have one text. -/
def dottedSchemaDefinition : Definition where
  relation := ⟨"a.b", "c"⟩

def dottedTableDefinition : Definition where
  relation := ⟨"a", "b.c"⟩

@[reducible] def dottedDigest : Digest where
  sha256Hex canonical :=
    if canonical = canonicalDefinition dottedSchemaDefinition then
      "e8f1da0408f1fc04a2ec7bb83cb80e2586eef94f2e82e2f80ac07944e285ccf3"
    else if canonical = canonicalDefinition dottedTableDefinition then
      "ef4669d9607d53aa84a9d6f548aa03378f7c2127cd5de11d94858ccbe3521536"
    else
      ""
  md5Hex _ := ""

def dottedSchemaCall : Call :=
  ⟨.upsertSnapshot dottedSchemaDefinition ⟨itemsSchema, [itemRow "1" "one"], none⟩, 1000⟩

def dottedTableCall : Call :=
  ⟨.upsertSnapshot dottedTableDefinition ⟨itemsSchema, [itemRow "2" "two"], none⟩, 2000⟩

def dottedManager : Manager MemoryStore :=
  letI := dottedDigest
  ((Manager.newManager newMemoryStore).2.perform dottedSchemaCall).perform dottedTableCall

/-- The shape of one table is found, and buried, under the name of the other. -/
theorem dotted_names_clash :
    letI := dottedDigest
    Arises dottedManager ∧
      (dottedManager.activeByRelation ⟨"a.b", "c"⟩).map (·.definition.relation) =
        [⟨"a.b", "c"⟩, ⟨"a", "b.c"⟩] ∧
      (dottedManager.invalidateByRelation ⟨"a.b", "c"⟩ 3000).1.toOption =
        some ["e8f1da0408-1", "ef4669d960-2"] ∧
      ¬RelationExact dottedManager ⟨"a.b", "c"⟩ := by
  have found : (dottedManager.activeByRelation ⟨"a.b", "c"⟩).map (·.definition.relation) =
      [⟨"a.b", "c"⟩, ⟨"a", "b.c"⟩] := by
    decide +kernel
  refine ⟨?_, found, by decide +kernel, fun exact => ?_⟩
  · exact @Arises.called _ dottedDigest _ _ (@Arises.called _ dottedDigest _ _
      (@Arises.loaded _ dottedDigest _ newMemoryStore [] rfl List.nodup_nil) dottedSchemaCall
      (by decide +kernel)) dottedTableCall (by decide +kernel)
  · have member : (⟨"a", "b.c"⟩ : Relation) ∈
        (dottedManager.activeByRelation ⟨"a.b", "c"⟩).map (·.definition.relation) := by
      rw [found]
      exact .tail _ (.head _)
    obtain ⟨state, listed, same⟩ := List.mem_map.mp member
    have own := ((exact.active state).mp listed).2
    rw [same] at own
    exact absurd own (by decide +kernel)

end Dotted

end PostgresSync.Shapes
