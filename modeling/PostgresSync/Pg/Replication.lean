import PostgresSync.Pg.ApplyBatch
import PostgresSync.Pg.Transactions

namespace PostgresSync.Pg

open PostgresSync.Data
open PostgresSync.Shapes
open PostgresSync.Storage

/-! The replication connection: what each message of the stream does, and the loop
that receives them and reports how far it has come. -/

inductive WalMessage where
  | relation (relationID : RelationID) (relation : Relation)
  | truncate (relationIDs : List RelationID)
  | logical (message : LogicalMessage)
  /-- A message that `handleLogicalMessage` has no case for. -/
  | other
  | malformed

section Shapes

variable [Store σ] [Digest]

def deleteInvalidated (now : Time) (manager : Manager σ) (state : State) :
    Except RuntimeError Unit × Manager σ :=
  let deleted := manager.delete state.handle now
  (ignoreGone deleted.1, deleted.2)

def invalidateShapesForSchemaChange (metadata : RelationMetadata) (now : Time)
    (manager : Manager σ) : Except RuntimeError Unit × Manager σ :=
  untilError
    (fun manager state =>
      if state.schema =
          schemaForColumns (projectedColumns metadata.columns state.definition.columns) then
        (.ok (), manager)
      else
        deleteInvalidated now manager state)
    manager (candidateShapes manager metadata)

/-- One turn of the loop of `invalidateDependentShapesForRelation`. -/
def invalidateDependent (metadata : RelationMetadata) (now : Time) (manager : Manager σ)
    (state : State) : Except RuntimeError Unit × Manager σ :=
  if definitionSupportsTargetedRefresh state.definition ||
      !definitionRequiresInvalidationForRelation state.definition metadata.relation
        metadata.rootRelation then
    (.ok (), manager)
  else
    deleteInvalidated now manager state

def invalidateDependentShapesForRelation (metadata : RelationMetadata) (now : Time)
    (manager : Manager σ) : Except RuntimeError Unit × Manager σ :=
  untilError (invalidateDependent metadata now) manager manager.activeStates

def invalidateRelation (relation : Relation) (now : Time) (manager : Manager σ) :
    Except RuntimeError Unit × Manager σ :=
  let invalidated := manager.invalidateByRelation relation now
  (invalidated.1.map (fun _ => ()) |>.mapError .manager, invalidated.2)

/-- One turn of the loop over the relations of a `TRUNCATE`. -/
def truncateRelation (cache : RelationCache) (now : Time) (manager : Manager σ)
    (relationID : RelationID) : Except RuntimeError Unit × Manager σ :=
  match cache[relationID]? with
  | none => (.ok (), manager)
  | some metadata =>
      thenStep (invalidateDependentShapesForRelation metadata now manager) fun manager =>
        thenStep (invalidateRelation metadata.relation now manager) fun manager =>
          if metadata.rootRelation ≠ metadata.relation then
            invalidateRelation metadata.rootRelation now manager
          else
            (.ok (), manager)

end Shapes

section Relations

variable [Store σ]

def cacheRelationMetadata (db : Database) (now : Time) (runtime : Runtime σ)
    (relationID : RelationID) (relation : Relation) :
    Except RuntimeError Unit × Runtime σ :=
  match db.describeRelation relation, db.lookupPartitionRoot relation with
  | .error error, _ => (.error error, runtime)
  | .ok _, .error error => (.error error, runtime)
  | .ok columns, .ok rootRelation =>
      let metadata := metadataFor relation rootRelation columns
      let invalidated := invalidateShapesForSchemaChange metadata now runtime.shapes
      (invalidated.1,
        { runtime with
          relationCache := runtime.relationCache.insert relationID metadata
          shapes := invalidated.2 })

variable {db : Database} {now : Time} {runtime : Runtime σ} {relationID : RelationID}
  {relation : Relation}

theorem cacheRelationMetadata_relationCache {columns : List DescribedColumn} {root : Relation}
    (described : db.describeRelation relation = .ok columns)
    (rooted : db.lookupPartitionRoot relation = .ok root) :
    (cacheRelationMetadata db now runtime relationID relation).2.relationCache =
      runtime.relationCache.insert relationID (metadataFor relation root columns) := by
  rw [cacheRelationMetadata, described, rooted]

theorem cacheRelationMetadata_cached
    (cached : (cacheRelationMetadata db now runtime relationID relation).1 = .ok ()) :
    ∃ columns root, db.describeRelation relation = .ok columns ∧
      db.lookupPartitionRoot relation = .ok root ∧
      (cacheRelationMetadata db now runtime relationID relation).2.relationCache =
        runtime.relationCache.insert relationID (metadataFor relation root columns) := by
  cases described : db.describeRelation relation with
  | error error => simp [cacheRelationMetadata, described] at cached
  | ok columns =>
      cases rooted : db.lookupPartitionRoot relation with
      | error error => simp [cacheRelationMetadata, described, rooted] at cached
      | ok root =>
          exact ⟨columns, root, rfl, rfl, cacheRelationMetadata_relationCache described rooted⟩

end Relations

section Messages

variable [Store σ] [Digest]

/-- What goes on around a message: the database that a catalog query and the reads of
a batch find, the moment, whether the status updates sent in its course are
delivered, and whether the loop is stopped while it applies a batch. -/
structure Surroundings where
  db : Database
  reads : Reads
  now : Time
  /-- The update that `applyWithPeriodicKeepalive` sends at once. -/
  firstDelivered : Bool := true
  /-- Those of its ticker. -/
  tickDelivered : List Bool := []
  /-- The one after the commit. -/
  commitDelivered : Bool := true
  cancelled : Bool := false

/-- What the loop has done: it has sent a status update, or applied a batch without an
error, which has left it with this runtime. -/
inductive Observation (σ : Type) where
  | sent (lsn : LSN)
  | applied (batch : ChangeBatch) (runtime : Runtime σ)

structure Replica (σ : Type) where
  runtime : Runtime σ
  batch : ChangeBatch := {}
  clientXLogPos : LSN
  /-- `nextStandbyMessageDeadline` has been set to the zero time. -/
  replyRequested : Bool := false
  running : Bool := true
  observed : List (Observation σ) := []

namespace Replica

def observe (replica : Replica σ) (observation : Observation σ) : Replica σ :=
  { replica with observed := replica.observed ++ [observation] }

/-- An update that is not delivered may still have been sent. -/
def sendStandbyStatus (delivered : Bool) (lsn : LSN) (replica : Replica σ) :
    Except RuntimeError Unit × Replica σ :=
  let replica := replica.observe (.sent lsn)
  if delivered then
    (.ok (),
      { replica with
        runtime := { replica.runtime with
          lastConfirmedLSN :=
            if replica.runtime.lastConfirmedLSN < lsn then lsn
            else replica.runtime.lastConfirmedLSN }
        replyRequested := false })
  else
    (.error (.replication "standby status update"), replica)

/-- The updates sent while a batch is being applied; the first error is kept. -/
def sendKeepalives : List Bool → Replica σ → Except RuntimeError Unit × Replica σ
  | [], replica => (.ok (), replica)
  | delivered :: rest, replica =>
      let sent := sendStandbyStatus delivered replica.runtime.lastConfirmedLSN replica
      let later := sendKeepalives rest sent.2
      (match sent.1 with
        | .error error => .error error
        | .ok () => later.1, later.2)

/-- A loop that is stopped does not wait for the batch, which is still applied. -/
def applyChangeBatchWithKeepalive [LSNText] (around : Surroundings) (batch : ChangeBatch)
    (replica : Replica σ) : Except RuntimeError Unit × Replica σ :=
  let kept := sendKeepalives (around.firstDelivered :: around.tickDelivered) replica
  let applied := applyChangeBatch around.reads batch around.now kept.2.runtime
  let replica := { kept.2 with runtime := applied.2 }
  if around.cancelled then
    (.error .cancelled, replica)
  else
    match applied.1 with
    | .error error => (.error error, replica)
    | .ok () => (kept.1, replica.observe (.applied batch replica.runtime))

def handleLogicalMessage [LSNText] (around : Surroundings) (message : WalMessage)
    (replica : Replica σ) : Except RuntimeError LSN × Replica σ :=
  match message with
  | .malformed => (.error .parse, replica)
  | .other => (.ok 0, replica)
  | .relation relationID relation =>
      let cached := cacheRelationMetadata around.db around.now replica.runtime relationID
        relation
      (cached.1.map fun _ => 0, { replica with runtime := cached.2 })
  | .truncate relationIDs =>
      let truncated := untilError
        (truncateRelation replica.runtime.relationCache around.now)
        replica.runtime.shapes relationIDs
      (truncated.1.map fun _ => 0,
        { replica with runtime := { replica.runtime with shapes := truncated.2 } })
  | .logical (.commit commitLSN transactionEndLSN) =>
      let batch := { replica.batch with commitLSN := commitLSN }
      match applyChangeBatchWithKeepalive around batch { replica with batch := batch } with
      | (.error error, replica) => (.error error, replica)
      | (.ok (), replica) =>
          match sendStandbyStatus around.commitDelivered commitLSN replica with
          | (.error error, replica) => (.error error, replica)
          | (.ok (), replica) => (.ok transactionEndLSN, { replica with batch := .reset 0 })
  | .logical message =>
      (.ok 0, { replica with
        batch := (replica.batch.handle replica.runtime.relationCache message).1 })

end Replica

inductive Incoming where
  | timeout
  | cancelled
  /-- An error of the connection or of the server, or a message that does not parse. -/
  | failed
  /-- A message that the loop passes over. -/
  | unrecognised
  | keepalive (serverWALEnd : LSN) (replyRequested : Bool)
  | xLogData (walStart : LSN) (message : WalMessage) (around : Surroundings)

/-- One turn of the loop: whether the deadline has passed at its top, whether the
update then sent is delivered, and what is received. -/
structure Turn where
  expired : Bool
  delivered : Bool
  incoming : Incoming

namespace Replica

def raise (lsn : LSN) (replica : Replica σ) : Replica σ :=
  { replica with
    clientXLogPos := if replica.clientXLogPos < lsn then lsn else replica.clientXLogPos }

def stop (replica : Replica σ) : Replica σ := { replica with running := false }

def receive [LSNText] (replica : Replica σ) : Incoming → Replica σ
  | .timeout | .unrecognised => replica
  | .cancelled | .failed => replica.stop
  | .keepalive serverWALEnd replyRequested =>
      let replica := replica.raise serverWALEnd
      { replica with replyRequested := replica.replyRequested || replyRequested }
  | .xLogData walStart message around =>
      match replica.handleLogicalMessage around message with
      | (.error _, replica) => replica.stop
      | (.ok commitLSN, replica) => (replica.raise commitLSN).raise walStart

def turn [LSNText] (replica : Replica σ) (turn : Turn) : Replica σ :=
  if replica.running = false then
    replica
  else if replica.replyRequested || turn.expired then
    match replica.sendStandbyStatus turn.delivered replica.clientXLogPos with
    | (.error _, replica) => replica.stop
    | (.ok (), replica) => replica.receive turn.incoming
  else
    replica.receive turn.incoming

/-- The loop begins at the position where replication was started, which
`startReplication` has also recorded as confirmed. -/
def start (runtime : Runtime σ) (startLSN : LSN) : Replica σ where
  runtime := { runtime with lastConfirmedLSN := startLSN }
  clientXLogPos := startLSN

def replicationLoop [LSNText] (runtime : Runtime σ) (startLSN : LSN) (turns : List Turn) :
    Replica σ :=
  turns.foldl turn (start runtime startLSN)

end Replica

end Messages

end PostgresSync.Pg
