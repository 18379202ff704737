import PostgresSync.Pg.ApplyBatch
import PostgresSync.Shapes.CatalogRuns
import PostgresSync.Shapes.Effects

namespace PostgresSync.Pg

open PostgresSync.Shapes
open PostgresSync.Storage

/-! What a batch does to a single shape.  The loops of `applyChangeBatch` visit the
shapes in a fixed order, and each visit changes a shape in a way that depends on
that shape alone. -/

structure Visit where
  relationID : RelationID
  metadata : RelationMetadata
  handle : String
  definition : Definition

/-- A shape in the course of a batch: its state, the states installed for it, and
whether it is in `refreshedDependentShapes`. -/
structure Life where
  state : State
  installed : List Installed := []
  refreshed : Bool := false

section Machine

variable [Digest] (reads : Reads) (batch : ChangeBatch) (now : Time)

def Visit.read (visit : Visit) : Except RuntimeError SnapshotResult :=
  let db := reads visit.relationID visit.handle
  if definitionSupportsTargetedRefresh visit.definition then
    snapshotChangedKeys db visit.definition visit.metadata
      (changedKeyRows batch visit.relationID)
  else
    snapshot db visit.definition

namespace Life

def refreshKeys (life : Life) (visit : Visit) (snapshot : SnapshotResult) : Life :=
  let keyRows := changedKeyRows batch visit.relationID
  let state := ((life.state.refreshKeys snapshot keyRows
    (targetedMetadata batch visit.metadata) now).map (·.1)).getD life.state
  { life with
    state := state
    installed := life.installed ++
      [⟨state, some ⟨visit.metadata.pkColumns, filedKeyRows snapshot.schema keyRows⟩⟩] }

def refresh (life : Life) (visit : Visit) (snapshot : SnapshotResult) : Life :=
  let state := (life.state.refresh snapshot (dependentMetadata batch visit.metadata) now).1
  { state := state
    installed := life.installed ++ [⟨state, none⟩]
    refreshed := true }

def bury (life : Life) : Life :=
  { life with
    state := life.state.tombstone now
    refreshed := true }

def visitTargeted (life : Life) (visit : Visit) : Life :=
  match visit.read reads batch with
  | .error (.relationNotFound _) =>
      { life with
        state := Manager.invalidatedState life.state
          (relationKey visit.definition.relation) now }
  | .error _ => life
  | .ok snapshot =>
      if visit.handle = life.state.handle then
        life.refreshKeys batch now visit snapshot
      else
        life

def refreshDependent (life : Life) (visit : Visit) : Life :=
  if definitionSupportsDependentRefresh visit.definition then
    match visit.read reads batch with
    | .error (.relationNotFound _) => life.bury now
    | .error _ => life
    | .ok snapshot => life.refresh batch now visit snapshot
  else
    life.bury now

def visitDependent (life : Life) (visit : Visit) : Life :=
  if visit.handle = life.state.handle ∧ life.refreshed = false then
    life.refreshDependent reads batch now visit
  else
    life

/-- One visit.  A shape that is gone stays as it is. -/
def visit (life : Life) (visit : Visit) : Life :=
  if life.state.deleted then
    life
  else if definitionSupportsTargetedRefresh visit.definition then
    life.visitTargeted reads batch now visit
  else
    life.visitDependent reads batch now visit

end Life

def lifeOf (state : State) (visits : List Visit) : Life :=
  visits.foldl (Life.visit reads batch now) { state := state }

end Machine

section Plan

def followsRelation (state : State) (metadata : RelationMetadata) : Bool :=
  state.relationIndex = relationKey metadata.relation ||
    state.relationIndex = relationKey metadata.rootRelation

def isTargetedBy (state : State) (metadata : RelationMetadata) : Bool :=
  definitionSupportsTargetedRefresh state.definition && followsRelation state metadata

def isDependentOn (state : State) (metadata : RelationMetadata) : Bool :=
  !definitionSupportsTargetedRefresh state.definition &&
    definitionRequiresInvalidationForRelation state.definition metadata.relation
      metadata.rootRelation

def visitTo (relationID : RelationID) (metadata : RelationMetadata) (state : State) :
    Visit :=
  ⟨relationID, metadata, state.handle, state.definition⟩

@[simp] theorem visitTo_handle (relationID : RelationID) (metadata : RelationMetadata)
    (state : State) : (visitTo relationID metadata state).handle = state.handle := rfl

@[simp] theorem visitTo_definition (relationID : RelationID) (metadata : RelationMetadata)
    (state : State) :
    (visitTo relationID metadata state).definition = state.definition := rfl

def relationVisits (manager : Manager σ) (cache : RelationCache) (batch : ChangeBatch)
    (relationID : RelationID) : List Visit :=
  match cache[relationID]? with
  | none => []
  | some metadata =>
      if (changedKeyRows batch relationID).isEmpty then
        []
      else
        ((manager.activeStates.filter (isTargetedBy · metadata)) ++
          manager.activeStates.filter (isDependentOn · metadata)).map
            (visitTo relationID metadata)

def batchVisits (manager : Manager σ) (cache : RelationCache) (batch : ChangeBatch) :
    List Visit :=
  batch.sortedRelationIDs.flatMap (relationVisits manager cache batch)

end Plan

section Lives

variable [Digest] {reads : Reads} {batch : ChangeBatch} {now : Time}

/-- The two states are one shape, except that it may be gone in one of them. -/
structure SameIdentity (left right : State) : Prop where
  handle : left.handle = right.handle
  definition : left.definition = right.definition

omit [Digest] in
theorem SameIdentity.refl (state : State) : SameIdentity state state := ⟨rfl, rfl⟩

omit [Digest] in
theorem SameIdentity.trans {first second third : State}
    (left : SameIdentity first second) (right : SameIdentity second third) :
    SameIdentity first third :=
  ⟨left.handle.trans right.handle, left.definition.trans right.definition⟩

omit [Digest] in
theorem SameIdentity.relationIndex {left right : State}
    (same : SameIdentity left right) : left.relationIndex = right.relationIndex := by
  simp [State.relationIndex, same.definition]

omit [Digest] in
theorem invalidatedState_identity (state : State) (key : String) :
    SameIdentity (Manager.invalidatedState state key now) state := by
  unfold Manager.invalidatedState
  split <;> exact ⟨rfl, rfl⟩

namespace Life

omit [Digest] in
theorem refreshKeys_identity (life : Life) (visit : Visit) (snapshot : SnapshotResult) :
    SameIdentity (life.refreshKeys batch now visit snapshot).state life.state := by
  show SameIdentity ((Option.map _ _).getD life.state) life.state
  cases computed : life.state.refreshKeys snapshot (changedKeyRows batch visit.relationID)
      (targetedMetadata batch visit.metadata) now with
  | none => exact .refl _
  | some refreshed =>
      have same := State.refreshKeys_sameShape computed
      exact ⟨same.handle, same.definition⟩

theorem refresh_identity (life : Life) (visit : Visit) (snapshot : SnapshotResult) :
    SameIdentity (life.refresh batch now visit snapshot).state life.state :=
  have same := State.refresh_sameShape life.state snapshot
    (dependentMetadata batch visit.metadata) now
  ⟨same.handle, same.definition⟩

theorem refreshDependent_identity (life : Life) (visit : Visit) :
    SameIdentity (life.refreshDependent reads batch now visit).state life.state := by
  unfold refreshDependent
  split
  · split
    · exact ⟨rfl, rfl⟩
    · exact .refl _
    · exact refresh_identity life visit _
  · exact ⟨rfl, rfl⟩

theorem visit_identity (life : Life) (visit : Visit) :
    SameIdentity (life.visit reads batch now visit).state life.state := by
  unfold Life.visit
  split
  · exact .refl _
  · split
    · unfold visitTargeted
      split
      · exact invalidatedState_identity _ _
      · exact .refl _
      · split
        · exact refreshKeys_identity life visit _
        · exact .refl _
    · unfold visitDependent
      split
      · exact refreshDependent_identity life visit
      · exact .refl _

@[simp] theorem visit_of_deleted {life : Life} (deleted : life.state.deleted = true)
    (visit : Visit) : life.visit reads batch now visit = life := by
  simp [Life.visit, deleted]

section Cases

variable {life : Life} {visit : Visit}

theorem visit_missing {relation : Relation}
    (targeted : definitionSupportsTargetedRefresh visit.definition = true)
    (missing : visit.read reads batch = .error (.relationNotFound relation)) :
    life.visit reads batch now visit =
      { life with
        state := Manager.invalidatedState life.state
          (relationKey visit.definition.relation) now } := by
  cases deleted : life.state.deleted with
  | true => simp [Life.visit, deleted, Manager.invalidatedState]
  | false => simp [Life.visit, deleted, targeted, visitTargeted, missing]

theorem visit_other (other : visit.handle ≠ life.state.handle)
    (unrelated : ∀ relation,
      visit.read reads batch = .error (.relationNotFound relation) →
        definitionSupportsTargetedRefresh visit.definition = false) :
    life.visit reads batch now visit = life := by
  unfold Life.visit
  split
  · rfl
  · split
    · next targeted =>
        unfold visitTargeted
        split
        · next relation missing => simp [unrelated relation missing] at targeted
        · rfl
        · simp [other]
    · simp [visitDependent, other]

theorem visit_own_targeted {snapshot : SnapshotResult}
    (alive : life.state.deleted = false) (own : visit.handle = life.state.handle)
    (targeted : definitionSupportsTargetedRefresh visit.definition = true)
    (read : visit.read reads batch = .ok snapshot) :
    life.visit reads batch now visit = life.refreshKeys batch now visit snapshot := by
  simp [Life.visit, alive, targeted, visitTargeted, read, own]

theorem visit_own_dependent (alive : life.state.deleted = false)
    (own : visit.handle = life.state.handle) (unrefreshed : life.refreshed = false)
    (dependent : definitionSupportsTargetedRefresh visit.definition = false) :
    life.visit reads batch now visit = life.refreshDependent reads batch now visit := by
  simp [Life.visit, alive, dependent, visitDependent, own, unrefreshed]

theorem visit_refreshed (refreshed : life.refreshed = true)
    (dependent : definitionSupportsTargetedRefresh visit.definition = false) :
    life.visit reads batch now visit = life := by
  simp [Life.visit, dependent, visitDependent, refreshed]

omit [Digest] in
theorem refreshKeys_deleted (snapshot : SnapshotResult) :
    (life.refreshKeys batch now visit snapshot).state.deleted = life.state.deleted := by
  show ((Option.map _ _).getD life.state).deleted = life.state.deleted
  cases computed : life.state.refreshKeys snapshot (changedKeyRows batch visit.relationID)
      (targetedMetadata batch visit.metadata) now with
  | none => rfl
  | some refreshed => exact (State.refreshKeys_sameShape computed).deleted

theorem visit_deleted (alive : life.state.deleted = false)
    (dead : (life.visit reads batch now visit).state.deleted = true) :
    (∃ relation, definitionSupportsTargetedRefresh visit.definition = true ∧
        visit.read reads batch = .error (.relationNotFound relation) ∧
        life.state.relationIndex = relationKey visit.definition.relation) ∨
      (definitionSupportsTargetedRefresh visit.definition = false ∧
        visit.handle = life.state.handle) := by
  cases targeted : definitionSupportsTargetedRefresh visit.definition with
  | false =>
      refine .inr ⟨rfl, ?_⟩
      by_contra other
      rw [visit_other other fun _ _ => targeted, alive] at dead
      cases dead
  | true =>
      cases read : visit.read reads batch with
      | ok snapshot =>
          by_cases own : visit.handle = life.state.handle
          · rw [visit_own_targeted alive own targeted read, refreshKeys_deleted, alive] at dead
            cases dead
          · rw [visit_other own (by simp [read]), alive] at dead
            cases dead
      | error error =>
          by_cases missing : ∃ relation, error = .relationNotFound relation
          · obtain ⟨relation, rfl⟩ := missing
            refine .inl ⟨relation, rfl, rfl, ?_⟩
            by_contra other
            rw [visit_missing targeted read] at dead
            simp [Manager.invalidatedState, other, alive] at dead
          · have unread : life.visit reads batch now visit = life := by
              cases error <;> simp_all [Life.visit, visitTargeted]
            rw [unread, alive] at dead
            cases dead

end Cases

end Life

@[simp] theorem lifeOf_nil (state : State) :
    lifeOf reads batch now state [] = { state := state } := rfl

@[simp] theorem lifeOf_concat (state : State) (visits : List Visit) (visit : Visit) :
    lifeOf reads batch now state (visits ++ [visit]) =
      (lifeOf reads batch now state visits).visit reads batch now visit := by
  simp [lifeOf]

theorem lifeOf_identity (state : State) (visits : List Visit) :
    SameIdentity (lifeOf reads batch now state visits).state state := by
  induction visits using List.reverseRecOn with
  | nil => exact .refl _
  | append_singleton visits visit hypothesis =>
      rw [lifeOf_concat]
      exact (Life.visit_identity _ visit).trans hypothesis

variable {state : State} {visits : List Visit}

theorem lifeOf_append_of_deleted
    (deleted : (lifeOf reads batch now state visits).state.deleted = true)
    (more : List Visit) :
    lifeOf reads batch now state (visits ++ more) =
      lifeOf reads batch now state visits := by
  induction more using List.reverseRecOn with
  | nil => simp
  | append_singleton more visit hypothesis =>
      rw [← List.append_assoc, lifeOf_concat, hypothesis, Life.visit_of_deleted deleted]

theorem lifeOf_append_others {more : List Visit}
    (others : ∀ visit ∈ more, visit.handle ≠ state.handle ∧
      definitionSupportsTargetedRefresh visit.definition = false) :
    lifeOf reads batch now state (visits ++ more) =
      lifeOf reads batch now state visits := by
  induction more using List.reverseRecOn with
  | nil => simp
  | append_singleton more visit hypothesis =>
      have earlier := hypothesis fun visit member =>
        others visit (List.mem_append_left _ member)
      obtain ⟨other, dependent⟩ := others visit (by simp)
      rw [← List.append_assoc, lifeOf_concat, earlier]
      refine Life.visit_other ?_ fun _ _ => dependent
      rwa [(lifeOf_identity state visits).handle]

omit [Digest] in
theorem invalidatedState_deleted {key : String} (related : state.relationIndex = key) :
    (Manager.invalidatedState state key now).deleted = true := by
  unfold Manager.invalidatedState
  cases deleted : state.deleted <;> simp [related, deleted]

theorem deleted_together {first second : State}
    (related : first.relationIndex = second.relationIndex)
    (targeted : definitionSupportsTargetedRefresh first.definition = true)
    (alive : first.deleted = false)
    (planned : ∀ visit ∈ visits, visit.handle = first.handle →
      visit.definition = first.definition)
    (dead : (lifeOf reads batch now first visits).state.deleted = true) :
    (lifeOf reads batch now second visits).state.deleted = true := by
  induction visits using List.reverseRecOn with
  | nil => simp [alive] at dead
  | append_singleton visits visit hypothesis =>
      have earlier := hypothesis fun visit member =>
        planned visit (List.mem_append_left _ member)
      have firstSame : SameIdentity (lifeOf reads batch now first visits).state first :=
        lifeOf_identity first visits
      have secondSame : SameIdentity (lifeOf reads batch now second visits).state second :=
        lifeOf_identity second visits
      cases gone : (lifeOf reads batch now first visits).state.deleted with
      | true =>
          rw [lifeOf_append_of_deleted (earlier gone)]
          exact earlier gone
      | false =>
          rw [lifeOf_concat] at dead ⊢
          rcases Life.visit_deleted gone dead with
            ⟨relation, visitTargeted, missing, index⟩ | ⟨dependent, own⟩
          · rw [Life.visit_missing visitTargeted missing]
            apply invalidatedState_deleted
            rw [secondSame.relationIndex, ← related, ← firstSame.relationIndex, index]
          · rw [firstSame.handle] at own
            rw [planned visit (by simp) own, targeted] at dependent
            cases dependent

end Lives

end PostgresSync.Pg
