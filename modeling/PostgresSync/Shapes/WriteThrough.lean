import PostgresSync.Shapes.Writes

namespace PostgresSync.Shapes

open PostgresSync.Data
open PostgresSync.Storage

/-! The map of shapes and the records in the store. -/

namespace Manager

structure Linked (manager : Manager σ) : Prop where
  named : ∀ (handle : String) (state : State),
    manager.byHandle[handle]? = some state → state.handle = handle
  known : ∀ hash handle : String, manager.byHash[hash]? = some handle →
    (manager.byHandle[handle]?).isSome = true

theorem Linked.empty (store : σ) : Linked ({ store := store } : Manager σ) :=
  ⟨by simp, by simp⟩

theorem Linked.stateAt {manager : Manager σ} (linked : manager.Linked) {hash handle : String}
    (found : manager.byHash[hash]? = some handle) :
    (manager.stateAt handle).handle = handle := by
  obtain ⟨state, held⟩ := Option.isSome_iff_exists.mp (linked.known hash handle found)
  rw [Manager.stateAt, Std.ExtTreeMap.getD_eq_getD_getElem?, held]
  exact linked.named handle state held

section Writing

variable [Digest] [Store σ] {manager : Manager σ} {write : Write}

omit [Store σ] in
theorem Linked.handle_eq (linked : manager.Linked) (legit : write.Legit manager) :
    write.state.handle = write.handle := by
  cases legit with
  | create unnamed handle active unchanged => rfl
  | resnapshot named => exact linked.stateAt named
  | touch named => exact linked.stateAt named
  | change active same quiet =>
      exact same.handle.trans (linked.named _ _ (active?_eq_some.mp active).1)
  | bury found =>
      have named := linked.named _ _ found
      exact named

omit [Store σ] in
theorem Linked.install (linked : manager.Linked) (legit : write.Legit manager) :
    (manager.install write).Linked where
  named handle state found := by
    rw [install_byHandle] at found
    split at found
    · next same =>
        rw [← Option.some.inj found, linked.handle_eq legit, same]
    · exact linked.named handle state found
  known hash handle found := by
    rw [install_byHandle]
    split
    · rfl
    · next other =>
        rw [install_byHash] at found
        cases write with
        | create state =>
            rw [Write.indexed, Dict.getElem?_insert] at found
            split at found
            · exact absurd (Option.some.inj found) other
            · exact linked.known hash handle found
        | resnapshot key target existing updated =>
            rw [Write.indexed, Dict.getElem?_insert] at found
            split at found
            · exact absurd (Option.some.inj found) other
            · exact linked.known hash handle found
        | put target state notifies => exact linked.known hash handle found
        | bury target state now =>
            rw [Write.indexed, Dict.getElem?_erase] at found
            split at found
            · cases found
            · exact linked.known hash handle found

theorem Linked.attempt (linked : manager.Linked) (legit : write.Legit manager) :
    (manager.attempt write).Linked := by
  have offered : (manager.offered write.state).Linked := ⟨linked.named, linked.known⟩
  unfold Manager.attempt
  split
  · exact offered.install (legit.offered _)
  · exact offered

end Writing

/-! The operation that writes all its records before it installs any state. -/

variable {manager : Manager σ}

theorem Linked.installTombstones {entries : List (String × State)} (linked : manager.Linked)
    (named : ∀ entry ∈ entries, entry.2.handle = entry.1) :
    (entries.foldl installTombstone manager).Linked := by
  induction entries generalizing manager with
  | nil => exact linked
  | cons entry rest hypothesis =>
      rw [List.foldl_cons]
      apply hypothesis
      · constructor
        · intro handle state found
          rw [installTombstone, notifyLocked_byHandle, putState_byHandle] at found
          split at found
          · next same =>
              rw [← Option.some.inj found, named entry (by simp), same]
          · exact linked.named handle state found
        · intro hash handle found
          rw [installTombstone, notifyLocked_byHandle, putState_byHandle]
          split
          · rfl
          · have kept : (manager.byHash.erase entry.2.hash)[hash]? = some handle := found
            rw [Dict.getElem?_erase] at kept
            split at kept
            · cases kept
            · exact linked.known hash handle kept
      · intro other member
        exact named other (by simp [member])

@[simp] theorem installTombstones_store (entries : List (String × State)) :
    ∀ manager : Manager σ,
      (entries.foldl installTombstone manager).store = manager.store := by
  induction entries with
  | nil =>
      intro manager
      rfl
  | cons entry rest hypothesis =>
      intro manager
      exact hypothesis _

theorem Linked.tombstones (linked : manager.Linked) (now : Time) (handles : List String) :
    ∀ entry ∈ manager.tombstones now handles, entry.2.handle = entry.1 := by
  intro entry member
  obtain ⟨handle, -, made⟩ := List.mem_filterMap.mp member
  obtain ⟨state, active, rfl⟩ := Option.map_eq_some_iff.mp made
  have named := linked.named handle state (active?_eq_some.mp active).1
  exact named

theorem Linked.invalidateByRelation [Store σ] (linked : manager.Linked) (relation : Relation)
    (now : Time) :
    (manager.invalidateByRelation relation now).2.Linked := by
  rcases manager.invalidateByRelation_cases relation now with
    ⟨-, nothing⟩ | ⟨store, ⟨error, -, failed⟩ | ⟨-, succeeded⟩⟩
  · rw [nothing]
    exact linked
  · rw [failed]
    exact ⟨linked.named, linked.known⟩
  · have stored : ({ manager with store := store } : Manager σ).Linked :=
      ⟨linked.named, linked.known⟩
    have installed := stored.installTombstones
      (linked.tombstones now (manager.listedHandles relation))
    rw [succeeded]
    exact ⟨installed.named, installed.known⟩

theorem Linked.buries [Digest] [Store σ] {last : Manager σ} (buries : manager.Buries last)
    (linked : manager.Linked) : last.Linked := by
  induction buries with
  | done manager => exact linked
  | next active rest hypothesis =>
      apply hypothesis
      exact linked.attempt (.bury (active?_eq_some.mp active).1)

theorem Linked.perform [Digest] [Store σ] (linked : manager.Linked) (call : Call) : (manager.perform call).Linked := by
  rcases manager.perform_cases call with
    ⟨-, same⟩ | performs | ⟨-, buries⟩ | ⟨relation, -, same⟩
  · rw [same]
    exact linked
  · obtain ⟨write, legit, -, same⟩ := performs
    rw [same]
    exact linked.attempt legit
  · exact Linked.buries buries linked
  · rw [same]
    exact linked.invalidateByRelation relation call.now

/-- The record of every handle is that of its state, and there are no others. -/
def WrittenThrough (manager : Manager UnreliableStore) : Prop :=
  ∀ handle : String,
    manager.store.shapes[handle]? = manager.byHandle[handle]?.map marshalState

section Records

variable {manager : Manager UnreliableStore} {write : Write}

theorem accepts_iff (state : State) :
    manager.Accepts state ↔ manager.store.refusals 0 = false := by
  simp only [Accepts, Store.saveShape]
  cases manager.store.refusals 0 <;> simp

theorem offered_shapes (state : State) :
    (manager.offered state).store.shapes =
      if manager.store.refusals 0 then manager.store.shapes
      else manager.store.shapes.insert state.handle (marshalState state) := by
  simp only [offered, Store.saveShape]
  cases manager.store.refusals 0 <;> rfl

theorem offered_refusals (state : State) (n : Nat) :
    (manager.offered state).store.refusals n = manager.store.refusals (n + 1) := by
  simp only [offered, Store.saveShape]
  cases manager.store.refusals 0 <;> rfl

theorem WrittenThrough.attempt [Digest] (written : manager.WrittenThrough)
    (linked : manager.Linked) (legit : write.Legit manager) :
    (manager.attempt write).WrittenThrough := by
  intro handle
  unfold Manager.attempt
  cases refused : manager.store.refusals 0 with
  | true =>
      rw [if_neg (by simp [accepts_iff, refused]), offered_shapes, if_pos refused]
      exact written handle
  | false =>
      rw [if_pos ((accepts_iff _).mpr refused), install_store, install_byHandle,
        offered_shapes, refused, if_neg Bool.false_ne_true, Dict.getElem?_insert,
        linked.handle_eq legit]
      split
      · rfl
      · exact written handle

theorem WrittenThrough.buries [Digest] {last : Manager UnreliableStore}
    (buries : manager.Buries last) (linked : manager.Linked)
    (written : manager.WrittenThrough) : last.WrittenThrough := by
  induction buries with
  | done manager => exact written
  | next active rest hypothesis =>
      have found := (active?_eq_some.mp active).1
      exact hypothesis (linked.attempt (.bury found)) (written.attempt linked (.bury found))

def savedRecords (shapes : Dict PersistedShape) (entries : List (String × State)) :
    Dict PersistedShape :=
  entries.foldl (fun shapes entry => shapes.insert entry.2.handle (marshalState entry.2))
    shapes

/-- The first loop of `InvalidateByRelation` saves every tombstone, or those before
the first that is refused. -/
theorem persistTombstones_shapes (now : Time) (handles : List String) :
    ∀ manager : Manager UnreliableStore,
      let entries := manager.tombstones now handles
      let outcome := manager.persistTombstones now handles
      ((∀ n < entries.length, manager.store.refusals n = false) ∧
          outcome.1 = .ok entries ∧
          outcome.2.store.shapes = savedRecords manager.store.shapes entries) ∨
        ∃ n < entries.length, manager.store.refusals n = true ∧
          (∀ earlier < n, manager.store.refusals earlier = false) ∧
          (∃ error, outcome.1 = .error error) ∧
          outcome.2.store.shapes = savedRecords manager.store.shapes (entries.take n) := by
  induction handles with
  | nil =>
      intro manager
      exact .inl ⟨nofun, rfl, rfl⟩
  | cons handle rest hypothesis =>
      intro manager
      dsimp only
      rw [persistTombstones]
      cases looked : manager.active? handle with
      | none =>
          rw [tombstones_cons_none looked]
          exact hypothesis manager
      | some state =>
          have first := @tombstones_cons_some _ manager now rest handle state looked
          rw [first]
          dsimp only
          cases refused : manager.store.refusals 0 with
          | true =>
              obtain ⟨error, failed⟩ := persistThen_of_not_accepts
                (show ¬manager.Accepts (state.tombstone now) by simp [accepts_iff, refused])
              rw [failed]
              refine .inr ⟨0, by simp, refused, by simp, ⟨_, rfl⟩, ?_⟩
              rw [offered_shapes, if_pos refused]
              rfl
          | false =>
              have accepted : manager.Accepts (state.tombstone now) :=
                (accepts_iff _).mpr refused
              rw [persistThen_of_accepts accepted]
              have others : (manager.offered (state.tombstone now)).tombstones now rest =
                  manager.tombstones now rest := rfl
              have records : ∀ entries, savedRecords
                  (manager.offered (state.tombstone now)).store.shapes entries =
                    savedRecords manager.store.shapes
                      ((handle, state.tombstone now) :: entries) := by
                intro entries
                rw [offered_shapes, refused, if_neg Bool.false_ne_true]
                rfl
              have later := hypothesis (manager.offered (state.tombstone now))
              dsimp only at later
              rw [others] at later
              cases run : (manager.offered (state.tombstone now)).persistTombstones now
                  rest with
              | mk result after =>
                  rw [run] at later
                  rcases later with ⟨none, succeeded, shapes⟩ |
                    ⟨n, bound, refusal, earlier, ⟨error, failed⟩, shapes⟩
                  · obtain rfl : result = _ := succeeded
                    refine .inl ⟨?_, rfl, shapes.trans (records _)⟩
                    intro n bound
                    cases n with
                    | zero => exact refused
                    | succ n =>
                        rw [← offered_refusals (state.tombstone now)]
                        exact none n (by simpa using bound)
                  · obtain rfl : result = _ := failed
                    refine .inr ⟨n + 1, by simpa using bound, ?_, ?_, ⟨error, rfl⟩,
                      shapes.trans (records _)⟩
                    · rw [← offered_refusals (state.tombstone now)]
                      exact refusal
                    · intro m below
                      cases m with
                      | zero => exact refused
                      | succ m =>
                          rw [← offered_refusals (state.tombstone now)]
                          exact earlier m (by omega)

theorem getElem?_savedRecords {entries : List (String × State)}
    (distinct : (entries.map (·.1)).Nodup)
    (named : ∀ entry ∈ entries, entry.2.handle = entry.1)
    (shapes : Dict PersistedShape) (handle : String) :
    (savedRecords shapes entries)[handle]? =
      ((entries.find? fun entry => entry.1 = handle).map fun entry =>
        marshalState entry.2).or shapes[handle]? := by
  have handles : entries.map (fun entry => entry.2.handle) = entries.map (·.1) :=
    List.map_congr_left named
  have found : entries.find? (fun entry => entry.2.handle = handle) =
      entries.find? fun entry => entry.1 = handle := by
    apply List.find?_congr
    intro entry member
    rw [named entry member]
  rw [savedRecords, Dict.getElem?_foldl_insert (by rw [handles]; exact distinct), found]

/-- When `InvalidateByRelation` is refused a save, it is the first that it makes. -/
def RefusesFirst (manager : Manager UnreliableStore) (call : Call) : Prop :=
  ∀ relation, call.operation = .invalidateByRelation relation →
    (∃ n < (manager.activeByRelation relation).length, manager.store.refusals n = true) →
      manager.store.refusals 0 = true

theorem length_activeByRelation (manager : Manager σ) (relation : Relation) (now : Time) :
    (manager.activeByRelation relation).length =
      (manager.tombstones now (manager.listedHandles relation)).length := by
  have mapped : manager.tombstones now (manager.listedHandles relation) =
      (manager.listedHandles relation).filterMap fun handle =>
        (manager.active? handle).map fun state => (handle, state.tombstone now) := rfl
  rw [activeByRelation, List.length_insertionSort, mapped, listedHandles]
  induction (manager.byRelation.getD (relationKey relation) ∅).toList with
  | nil => rfl
  | cons handle rest hypothesis =>
      cases looked : manager.active? handle <;> simp [looked, hypothesis]

theorem WrittenThrough.installed (written : manager.WrittenThrough) {store : UnreliableStore}
    {entries : List (String × State)} (distinct : (entries.map (·.1)).Nodup)
    (named : ∀ entry ∈ entries, entry.2.handle = entry.1)
    (shapes : store.shapes = savedRecords manager.store.shapes entries) (handle : String) :
    store.shapes[handle]? = (entries.foldl installTombstone
      { manager with store := store }).byHandle[handle]?.map marshalState := by
  rw [shapes, getElem?_savedRecords distinct named, installTombstones_byHandle distinct,
    written handle]
  cases entries.find? fun entry => entry.1 = handle <;> simp

theorem not_writtenThrough_of_saved {store : UnreliableStore} {handle : String}
    {state : State} (now : Time) (active : manager.active? handle = some state)
    (saved : store.shapes[handle]? = some (marshalState (state.tombstone now))) :
    ¬WrittenThrough { manager with store := store } := by
  intro written
  obtain ⟨found, alive⟩ := active?_eq_some.mp active
  have equal := written handle
  rw [saved, found, Option.map_some, Option.some.injEq] at equal
  have deleted := congrArg PersistedShape.deleted equal
  rw [State.Active] at alive
  simp [marshalState, alive] at deleted

theorem WrittenThrough.invalidateByRelation_iff (written : manager.WrittenThrough)
    (linked : manager.Linked) (relation : Relation) (now : Time) :
    (manager.invalidateByRelation relation now).2.WrittenThrough ↔
      ((∃ n < (manager.activeByRelation relation).length,
        manager.store.refusals n = true) → manager.store.refusals 0 = true) := by
  rw [length_activeByRelation manager relation now]
  have distinct := manager.listedTombstones_nodup relation now
  have named := linked.tombstones now (manager.listedHandles relation)
  have loop := persistTombstones_shapes now (manager.listedHandles relation) manager
  dsimp only at loop
  rcases manager.invalidateByRelation_cases relation now with
    ⟨none, nothing⟩ | ⟨store, ⟨error, saved, failed⟩ | ⟨saved, succeeded⟩⟩
  · rw [nothing, none]
    exact ⟨fun _ => by simp, fun _ => written⟩
  · rw [saved] at loop
    rcases loop with ⟨-, impossible, -⟩ | ⟨n, bound, refused, earlier, -, shapes⟩
    · cases impossible
    · rw [failed]
      cases n with
      | zero =>
          refine ⟨fun _ _ => refused, fun _ handle => ?_⟩
          rw [shapes]
          exact written handle
      | succ n =>
          have taken : manager.store.refusals 0 = false := earlier 0 (by omega)
          constructor
          · intro agreed
            exfalso
            -- the first tombstone is in the store, and its shape is still active
            cases listed : manager.tombstones now (manager.listedHandles relation) with
            | nil => simp [listed] at bound
            | cons entry rest =>
                have member : entry ∈ manager.tombstones now
                    (manager.listedHandles relation) := by simp [listed]
                obtain ⟨handle, -, made⟩ := List.mem_filterMap.mp member
                obtain ⟨state, active, rfl⟩ := Option.map_eq_some_iff.mp made
                refine not_writtenThrough_of_saved now active ?_ agreed
                rw [listed, List.take_succ_cons] at shapes
                rw [listed] at distinct named
                rw [shapes, getElem?_savedRecords]
                · simp
                · have part : ((handle, state.tombstone now) :: rest.take n).Sublist
                      ((handle, state.tombstone now) :: rest) :=
                    (List.take_sublist n rest).cons_cons _
                  exact distinct.sublist (part.map _)
                · intro other taken
                  apply named
                  rcases List.mem_cons.mp taken with rfl | taken
                  · simp
                  · simp [List.mem_of_mem_take taken]
          · intro first
            rw [first ⟨n + 1, bound, refused⟩] at taken
            cases taken
  · rw [saved] at loop
    rcases loop with ⟨accepted, -, shapes⟩ | ⟨n, bound, refused, earlier, ⟨error, impossible⟩, -⟩
    · rw [succeeded]
      constructor
      · rintro - ⟨n, bound, refused⟩
        rw [accepted n bound] at refused
        cases refused
      · intro _ handle
        have store_eq : (List.foldl installTombstone { manager with store := store }
            (manager.tombstones now (manager.listedHandles relation))).store = store :=
          installTombstones_store _ _
        show (List.foldl installTombstone { manager with store := store }
            (manager.tombstones now (manager.listedHandles relation))).store.shapes[handle]? = _
        rw [store_eq]
        exact written.installed distinct named shapes handle
    · cases impossible

end Records

section Runs

variable [Digest] {manager : Manager UnreliableStore}

theorem WrittenThrough.perform_iff (written : manager.WrittenThrough)
    (linked : manager.Linked) (call : Call) :
    (manager.perform call).WrittenThrough ↔ manager.RefusesFirst call := by
  by_cases relational : ∃ relation, call.operation = .invalidateByRelation relation
  · obtain ⟨relation, named⟩ := relational
    have performed : manager.perform call =
        (manager.invalidateByRelation relation call.now).2 := by
      rw [perform, named]
    rw [performed, written.invalidateByRelation_iff linked]
    constructor
    · intro first other same
      obtain rfl := Operation.invalidateByRelation.inj (named.symm.trans same)
      exact first
    · intro first
      exact first relation named
  · refine ⟨fun _ relation named => absurd ⟨relation, named⟩ relational, fun _ => ?_⟩
    rcases manager.perform_cases call with
      ⟨-, same⟩ | performs | ⟨-, buries⟩ | ⟨relation, named, -⟩
    · rw [same]
      exact written
    · obtain ⟨write, legit, -, same⟩ := performs
      rw [same]
      exact written.attempt linked legit
    · exact WrittenThrough.buries buries linked written
    · exact absurd ⟨relation, named⟩ relational

end Runs

end Manager

/-- After every operation of a run the store holds the record of each shape, exactly
when every `InvalidateByRelation` of the run that is refused a save is refused the
first. -/
theorem writtenThrough_iff [Digest] (refusals : Nat → Bool) (calls : List Call) :
    (∀ part, part <+: calls →
        (part.foldl Manager.perform
          { store := { refusals := refusals } }).WrittenThrough) ↔
      Along Manager.perform Manager.RefusesFirst
        { store := { refusals := refusals } } calls := by
  apply Along.throughout_iff Manager.Linked
  · intro manager call linked _ _
    exact linked.perform call
  · intro manager call linked written
    exact written.perform_iff linked call
  · exact .empty _
  · intro handle
    simp

def invalidateTwoShapes : List Call :=
  [⟨.upsertSnapshot itemsDefinition ⟨itemsSchema, [itemRow "1" "one"], none⟩, 1000⟩,
    ⟨.upsertSnapshot oneItemDefinition ⟨itemsSchema, [itemRow "1" "one"], none⟩, 2000⟩,
    ⟨.invalidateByRelation ⟨"public", "items"⟩, 3000⟩]

def halfInvalidatedManager : Manager UnreliableStore :=
  letI := twoShapesDigest
  invalidateTwoShapes.foldl Manager.perform { store := { refusals := fun n => n = 3 } }

/-- The second tombstone is refused, and the first one stays in the store while its
shape stays active. -/
theorem halfInvalidatedManager_not_writtenThrough :
    ((halfInvalidatedManager.store.shapes["6dc4c190f9-2"]?).map (·.deleted) = some true) ∧
      ((halfInvalidatedManager.byHandle["6dc4c190f9-2"]?).map (·.deleted) = some false) ∧
      ¬halfInvalidatedManager.WrittenThrough := by
  have stored : (halfInvalidatedManager.store.shapes["6dc4c190f9-2"]?).map (·.deleted) =
      some true := by
    decide +kernel
  have held : (halfInvalidatedManager.byHandle["6dc4c190f9-2"]?).map (·.deleted) =
      some false := by
    decide +kernel
  refine ⟨stored, held, fun written => ?_⟩
  have records := congrArg (Option.map (·.deleted)) (written "6dc4c190f9-2")
  rw [stored, Option.map_map] at records
  cases records.trans held

end PostgresSync.Shapes
