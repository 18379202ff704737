import PostgresSync.Data.Loop
import PostgresSync.Pg.Dependencies
import PostgresSync.Pg.Queries

namespace PostgresSync.Pg

open PostgresSync.Data
open PostgresSync.Shapes
open PostgresSync.Storage

/-! How the changes of one transaction reach the shapes. -/

/-- The database that each read of a batch finds, by the relation being handled
and the handle of the shape. -/
abbrev Reads := RelationID → String → Database

/-- What the loops over the relations and shapes have done so far: the manager,
the set `refreshedDependentShapes`, and the states installed. -/
structure BatchProgress (σ : Type) where
  manager : Manager σ
  refreshed : StringSet := ∅
  installed : List Installed := []

/-- The errors that mean that a shape is gone are no reason to stop. -/
def ignoreGone : Except ManagerError α → Except RuntimeError Unit
  | .ok _ => .ok ()
  | .error .shapeNotFound => .ok ()
  | .error .shapeDeleted => .ok ()
  | .error error => .error (.manager error)

def dedupeHandles (seen : StringSet) : List State → List State
  | [] => []
  | state :: rest =>
      if state.handle ∈ seen then
        dedupeHandles seen rest
      else
        state :: dedupeHandles (seen.insert state.handle) rest

def relatedShapes (manager : Manager σ) (metadata : RelationMetadata) : List State :=
  manager.activeByRelation metadata.relation ++
    if metadata.rootRelation ≠ metadata.relation then
      manager.activeByRelation metadata.rootRelation
    else
      []

def candidateShapes (manager : Manager σ) (metadata : RelationMetadata) : List State :=
  dedupeHandles ∅ ((relatedShapes manager metadata).insertionSort
    fun left right => left.handle ≤ right.handle)

def changedKeyRows (batch : ChangeBatch) (relationID : RelationID) : List Row :=
  ((batch.changesForRelation relationID).map (·.primaryKey)).filter fun key => !key.isEmpty

/-- The keys of a targeted refresh that the shape can file a row under. -/
def filedKeyRows (schema : Schema) (keyRows : List Row) : List Row :=
  keyRows.filter fun key => Shapes.primaryKeySignature schema key ≠ ""

def installedBy (query : Option KeyQuery) :
    Except ManagerError (State × List Message) → List Installed
  | .ok refreshed => [⟨refreshed.1, query⟩]
  | .error _ => []

section Apply

variable [Store σ] [Digest] (reads : Reads) (batch : ChangeBatch)
  (relationID : RelationID) (metadata : RelationMetadata) (now : Time)

def targetedMetadata : ChangeMetadata where
  keyRelation := metadata.relation
  commitLSN := batch.commitLSN
  transactionID := batch.xid

def dependentMetadata : ChangeMetadata :=
  { targetedMetadata batch metadata with dependentRefresh := true }

/-- One turn of the loop over the candidate shapes. -/
def refreshTargetedShape (progress : BatchProgress σ) (state : State) :
    Except RuntimeError Unit × BatchProgress σ :=
  let keyRows := changedKeyRows batch relationID
  if definitionSupportsTargetedRefresh state.definition then
    match snapshotChangedKeys (reads relationID state.handle) state.definition metadata
        keyRows with
    | .error (.relationNotFound _) =>
        let invalidated := progress.manager.invalidateByRelation
          state.definition.relation now
        (invalidated.1.map (fun _ => ()) |>.mapError .manager,
          { progress with manager := invalidated.2 })
    | .error error => (.error error, progress)
    | .ok snapshot =>
        let refreshed := progress.manager.refreshKeysWithMetadata state.handle snapshot
          keyRows (targetedMetadata batch metadata) now
        (ignoreGone refreshed.1,
          { progress with
            manager := refreshed.2
            installed := progress.installed ++
              installedBy (some ⟨metadata.pkColumns, filedKeyRows snapshot.schema keyRows⟩)
                refreshed.1 })
  else
    (.ok (), progress)

def BatchProgress.mark (progress : BatchProgress σ) (handle : String) :
    BatchProgress σ :=
  { progress with refreshed := progress.refreshed.insert handle }

def deleteDependentShape (progress : BatchProgress σ) (handle : String) :
    Except RuntimeError Unit × BatchProgress σ :=
  let deleted := progress.manager.delete handle now
  thenStep (ignoreGone deleted.1, { progress with manager := deleted.2 })
    fun progress => (.ok (), progress.mark handle)

def installDependentRefresh (progress : BatchProgress σ) (handle : String)
    (snapshot : SnapshotResult) : Except RuntimeError Unit × BatchProgress σ :=
  let refreshed := progress.manager.refreshWithMetadata handle snapshot
    (dependentMetadata batch metadata) now
  thenStep
    (ignoreGone refreshed.1,
      { progress with
        manager := refreshed.2
        installed := progress.installed ++ installedBy none refreshed.1 })
    fun progress => (.ok (), progress.mark handle)

/-- One turn of the loop of `refreshDependentShapesForRelation`. -/
def refreshDependentShape (progress : BatchProgress σ) (state : State) :
    Except RuntimeError Unit × BatchProgress σ :=
  if definitionSupportsTargetedRefresh state.definition ||
      !definitionRequiresInvalidationForRelation state.definition metadata.relation
        metadata.rootRelation ||
      progress.refreshed.contains state.handle then
    (.ok (), progress)
  else if definitionSupportsDependentRefresh state.definition then
    match snapshot (reads relationID state.handle) state.definition with
    | .error (.relationNotFound _) => deleteDependentShape now progress state.handle
    | .error error => (.error error, progress)
    | .ok snapshot =>
        installDependentRefresh batch metadata now progress state.handle snapshot
  else
    deleteDependentShape now progress state.handle

def refreshDependentShapesForRelation (progress : BatchProgress σ) :
    Except RuntimeError Unit × BatchProgress σ :=
  untilError (refreshDependentShape reads batch relationID metadata now) progress
    progress.manager.activeStates

/-- One turn of the loop over the relations of a batch. -/
def applyRelation (cache : RelationCache) (progress : BatchProgress σ)
    (relationID : RelationID) : Except RuntimeError Unit × BatchProgress σ :=
  match cache[relationID]? with
  | none => (.ok (), progress)
  | some metadata =>
      if (changedKeyRows batch relationID).isEmpty then
        (.ok (), progress)
      else
        thenStep
          (untilError (refreshTargetedShape reads batch relationID metadata now) progress
            (candidateShapes progress.manager metadata))
          (refreshDependentShapesForRelation reads batch relationID metadata now)

def applyRelations (cache : RelationCache) (manager : Manager σ) :
    Except RuntimeError Unit × BatchProgress σ :=
  untilError (applyRelation reads batch now cache) { manager := manager }
    batch.sortedRelationIDs

def applyChangeBatch [LSNText] (runtime : Runtime σ) :
    Except RuntimeError Unit × Runtime σ :=
  let applied := applyRelations reads batch now runtime.relationCache runtime.shapes
  let runtime := { runtime with
    shapes := applied.2.manager
    installed := runtime.installed ++ applied.2.installed }
  match applied.1 with
  | .error error => (.error error, runtime)
  | .ok () =>
      if 0 < batch.commitLSN then
        let slotName :=
          if runtime.replicationSlot = "" then
            replicationSlotName runtime.cfg runtime.shapes.store now
          else
            runtime.replicationSlot
        let saved := saveRuntimeCheckpoint runtime.cfg runtime.shapes slotName
          batch.commitLSN runtime.systemIdentity
        (saved.1, { runtime with shapes := saved.2 })
      else
        (.ok (), runtime)

end Apply

end PostgresSync.Pg
