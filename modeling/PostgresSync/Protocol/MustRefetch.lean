import PostgresSync.Protocol.Service
import PostgresSync.Shapes.Effects

namespace PostgresSync.Protocol

open PostgresSync.Data
open PostgresSync.Shapes
open PostgresSync.Storage

/-! Telling one client to refetch, and what it does to the shapes of the others. -/

/-- What the clients of a shape depend on. -/
structure SameContent (before after : State) : Prop where
  materialized : after.materialized = before.materialized
  snapshot : after.snapshot = before.snapshot
  changes : after.changes = before.changes
  currentOffset : after.currentOffset = before.currentOffset

theorem SameContent.refl (state : State) : SameContent state state :=
  ⟨rfl, rfl, rfl, rfl⟩

def Undisturbed (before after : Manager σ) : Prop :=
  ∀ (handle : String) (state : State), before.byHandle[handle]? = some state →
    state.deleted = false →
      ∃ state' : State, after.byHandle[handle]? = some state' ∧
        SameContent state state'

theorem Undisturbed.refl (manager : Manager σ) : Undisturbed manager manager :=
  fun _ state found _ => ⟨state, found, .refl state⟩

structure Blank (state : State) : Prop where
  materialized : state.materialized = ∅
  snapshot : state.snapshot = []
  changes : state.changes = []
  currentOffset : state.currentOffset = initialOffset

section

variable [Digest] [Store σ]

/-- The handle of the request is unknown, tombstoned, or of another
definition. -/
def Stranger (manager : Manager σ) (request : ShapeRequest) : Prop :=
  ∀ state ∈ manager.byHandle[request.handle]?,
    state.deleted = true ∨
      state.hash ≠ canonicalHash (shapeDefinitionFromRequest request)

instance (manager : Manager σ) (request : ShapeRequest) :
    Decidable (Stranger manager request) :=
  inferInstanceAs (Decidable (∀ state ∈ manager.byHandle[request.handle]?, _))

def NamesShape (request : ShapeRequest) : Prop :=
  request.handle ≠ "" ∧
    (request.subset.isSome = true ∨
      (request.offset ≠ "-1" ∧ request.offset ≠ "now"))

instance (request : ShapeRequest) : Decidable (NamesShape request) :=
  inferInstanceAs (Decidable (_ ∧ _))

/-- A continuation whose offset is beyond the active shape it names; it is
rejected before the definitions are compared. -/
def Rejected (manager : Manager σ) (request : ShapeRequest) : Prop :=
  request.subset = none ∧
    manager.read request.handle request.offset = .error .offsetOutOfRange

omit [Store σ] in
theorem resnapshot_blank (base : State) (definition : Definition)
    (snapshot : SnapshotResult) (now : Time) (rows : snapshot.rows = []) :
    Blank (base.resnapshot definition snapshot initialOffset now) where
  materialized := by simp [State.resnapshot, materializedRows, rows]
  snapshot := by
    simp [State.resnapshot, buildSnapshotMessages, rows,
      decorateDependentSnapshotMessages]
  changes := rfl
  currentOffset := rfl

theorem upsertSnapshot_undisturbed_iff (manager : Manager σ)
    (definition : Definition) (snapshot : SnapshotResult) (now : Time)
    (rows : snapshot.rows = []) :
    Undisturbed manager (manager.upsertSnapshot definition snapshot now).2 ↔
      ¬manager.Accepts (manager.upsertState definition snapshot initialOffset now) ∨
        ∀ state, manager.byHandle[manager.upsertTarget definition now]? = some state →
          state.deleted = false → Blank state := by
  by_cases accepted : manager.Accepts
      (manager.upsertState definition snapshot initialOffset now)
  · obtain ⟨-, written⟩ := manager.upsertSnapshotAtOffset_of_accepts definition
      snapshot initialOffset now accepted
    obtain ⟨base, stored⟩ := manager.upsertState_eq definition snapshot
      initialOffset now
    have blank := resnapshot_blank base definition snapshot now rows
    rw [← stored] at blank
    simp only [accepted, not_true_eq_false, false_or]
    constructor
    · intro undisturbed state found active
      obtain ⟨state', found', same⟩ := undisturbed _ state found active
      obtain rfl := Option.some.inj
        (((written _).symm.trans found').symm.trans (if_pos rfl))
      exact ⟨same.materialized ▸ blank.materialized, same.snapshot ▸ blank.snapshot,
        same.changes ▸ blank.changes, same.currentOffset ▸ blank.currentOffset⟩
    · intro harmless handle state found active
      by_cases target : manager.upsertTarget definition now = handle
      · have before := harmless state (target ▸ found) active
        refine ⟨_, (written handle).trans (if_pos target), ?_⟩
        exact ⟨blank.materialized.trans before.materialized.symm,
          blank.snapshot.trans before.snapshot.symm,
          blank.changes.trans before.changes.symm,
          blank.currentOffset.trans before.currentOffset.symm⟩
      · exact ⟨state, ((written handle).trans (if_neg target)).trans found, .refl state⟩
  · obtain ⟨error, refused⟩ := manager.upsertSnapshotAtOffset_of_not_accepts
      definition snapshot initialOffset now accepted
    refine iff_of_true ?_ (.inl accepted)
    intro handle state found _
    refine ⟨state, ?_, .refl state⟩
    simpa [Manager.upsertSnapshot, refused] using found

/-- What a refetch needs to leave the other clients alone: it stops before the
upsert, or the shape it overwrites has nothing to lose. -/
def HarmlessRefetch (backend : Backend) (request : ShapeRequest)
    (manager : Manager σ) (now : Time) : Prop :=
  let definition := shapeDefinitionFromRequest request
  Rejected manager request ∨
    ∀ snapshot, backend.snapshot ⟨definition, .validateOnly, false⟩ = .ok snapshot →
      ¬manager.Accepts (manager.upsertState definition snapshot initialOffset now) ∨
        ∀ state, manager.byHandle[manager.upsertTarget definition now]? = some state →
          state.deleted = false → Blank state

theorem mustRefetch_manager (backend : Backend) (request : ShapeRequest)
    (definition : Definition) (manager : Manager σ) (now : Time) :
    (mustRefetch backend request definition manager now).2 =
      match backend.snapshot ⟨definition, .validateOnly, false⟩ with
      | .error _ => manager
      | .ok snapshot => (manager.upsertSnapshot definition snapshot now).2 := by
  unfold mustRefetch
  cases backend.snapshot ⟨definition, .validateOnly, false⟩ with
  | error error => rfl
  | ok snapshot =>
      cases written : manager.upsertSnapshot definition snapshot now with
      | mk result after => cases result <;> simp [written]

theorem handleShape_of_stranger (backend : Backend) {request : ShapeRequest}
    {manager : Manager σ} (now : Time) (names : NamesShape request)
    (stranger : Stranger manager request) :
    (Rejected manager request ∧ (handleShape backend request manager now).2 = manager) ∨
      (¬Rejected manager request ∧ (handleShape backend request manager now).2 =
        (mustRefetch backend request (shapeDefinitionFromRequest request) manager
          now).2) := by
  obtain ⟨named, kind⟩ := names
  unfold handleShape
  dsimp only
  cases subset : request.subset with
  | some part =>
      have accepted : ¬Rejected manager request := by simp [Rejected, subset]
      refine .inr ⟨accepted, ?_⟩
      simp only [Option.isSome_some, if_true, serveSubsetSnapshot,
        resolveSubsetShape, named, ne_eq, not_false_eq_true, Manager.lookupByHandle]
      cases looked : manager.active? request.handle with
      | none => rfl
      | some state =>
          obtain ⟨found, active⟩ := Manager.active?_eq_some.mp looked
          have other := (stranger state found).resolve_left (by
            rw [show state.deleted = false from active]; simp)
          simp [sameShapeDefinition, other, subsetResolutionResponse]
  | none =>
      obtain ⟨notInitial, notNow⟩ := kind.resolve_left (by simp [subset])
      simp only [Option.isSome_none, Bool.false_eq_true, if_false, notInitial, notNow,
        serveContinuation]
      cases result : manager.read request.handle request.offset with
      | error error =>
          rcases Manager.read_error_cases result with rfl | rfl | rfl
          · exact .inr ⟨by simp [Rejected, result], rfl⟩
          · exact .inr ⟨by simp [Rejected, result], rfl⟩
          · exact .inl ⟨⟨subset, result⟩, rfl⟩
      | ok pair =>
          obtain ⟨state, messages⟩ := pair
          obtain ⟨found, active⟩ := Manager.read_ok result
          have other := (stranger state found).resolve_left (by simp [active])
          refine .inr ⟨by simp [Rejected, result], ?_⟩
          simp [sameShapeDefinition, other]

/-- A request that names a shape it may not continue leaves every active shape
as it was exactly when its refetch is harmless. -/
theorem refetch_undisturbed_iff (backend : Backend) (request : ShapeRequest)
    (manager : Manager σ) (now : Time) (names : NamesShape request)
    (stranger : Stranger manager request) :
    Undisturbed manager (handleShape backend request manager now).2 ↔
      HarmlessRefetch backend request manager now := by
  rcases handleShape_of_stranger backend now names stranger with
    ⟨rejected, unchanged⟩ | ⟨accepted, refetched⟩
  · rw [unchanged]
    exact iff_of_true (.refl manager) (.inl rejected)
  · rw [refetched, mustRefetch_manager]
    simp only [HarmlessRefetch, accepted, false_or]
    cases described : backend.snapshot
        ⟨shapeDefinitionFromRequest request, .validateOnly, false⟩ with
    | error error => exact iff_of_true (.refl manager) (by simp)
    | ok snapshot =>
        have rows := backend.validateOnly rfl described
        simpa using upsertSnapshot_undisturbed_iff manager
          (shapeDefinitionFromRequest request) snapshot now rows

end

def itemsBackend (rows : List Row) : Backend where
  snapshot request :=
    .ok { schema := itemsSchema
          rows := if request.mode = .validateOnly then [] else rows }
  validateOnly validate result := by
    obtain rfl := Except.ok.inj result
    simp [validate]

def itemsRequest (handle : String) : ShapeRequest where
  relation := ⟨"public", "items"⟩
  offset := "0_0"
  handle := handle

def itemsManager : Manager MemoryStore := itemsManagerOver newMemoryStore

theorem refetch_undisturbed_deleted :
    letI := tabulatedDigest
    let manager := (itemsManager.delete "fa19db76c4-1" 2000).2
    Undisturbed manager (handleShape (itemsBackend [itemRow "1" "one"])
      (itemsRequest "fa19db76c4-1") manager 3000).2 :=
  (@refetch_undisturbed_iff _ tabulatedDigest _
    (itemsBackend [itemRow "1" "one"]) (itemsRequest "fa19db76c4-1")
    (itemsManager.delete "fa19db76c4-1" 2000).2 3000 (by decide +kernel)
    (by decide +kernel)).mpr
    (.inr fun _ _ => .inr fun state found => by
      have absent : (itemsManager.delete "fa19db76c4-1" 2000).2.byHandle[
          @Manager.upsertTarget _ tabulatedDigest
            (itemsManager.delete "fa19db76c4-1" 2000).2
            (shapeDefinitionFromRequest (itemsRequest "fa19db76c4-1")) 3000]? =
          none := by
        decide +kernel
      rw [absent] at found
      cases found)

/-- A client with an unknown handle empties the shape that others are reading. -/
theorem refetch_empties_active_shape :
    letI := tabulatedDigest
    NamesShape (itemsRequest "unknown") ∧
      Stranger itemsManager (itemsRequest "unknown") ∧
      ¬Undisturbed itemsManager
        (handleShape (itemsBackend [itemRow "1" "one"]) (itemsRequest "unknown")
          itemsManager 2000).2 := by
  refine ⟨by decide +kernel, by decide +kernel, fun undisturbed => ?_⟩
  have before : itemsManager.byHandle["fa19db76c4-1"]?.any (fun state =>
      state.deleted = false ∧ state.materialized.isEmpty = false) = true := by
    decide +kernel
  have after : (@handleShape _ tabulatedDigest _ (itemsBackend [itemRow "1" "one"])
      (itemsRequest "unknown") itemsManager 2000).2.byHandle["fa19db76c4-1"]?.any
        (fun state => state.materialized.isEmpty = true) = true := by
    decide +kernel
  obtain ⟨state, found, facts⟩ := (Option.any_eq_true _ _).mp before
  simp only [decide_eq_true_eq] at facts
  obtain ⟨state', found', same⟩ := undisturbed _ state found facts.1
  rw [found', Option.any_some, decide_eq_true_eq, same.materialized, facts.2] at after
  cases after

end PostgresSync.Protocol
