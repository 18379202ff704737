import PostgresSync.Pg.BatchKeys
import PostgresSync.Pg.Truncation

/-!
A transaction handled message by message, and the shapes that depend on the relations it
touches. Its truncations bury shapes as they come; its row changes are gathered in the batch
and reach the shapes at the commit.
-/

namespace PostgresSync.Pg

open PostgresSync.Data
open PostgresSync.Shapes
open PostgresSync.Storage

inductive Edit where
  | rows (relationID : RelationID) (change : RowChange)
  | truncate (relationIDs : List RelationID)

/-- The message for it; the tuples are laid out as the cached columns. -/
def Edit.message (cache : RelationCache) : Edit → WalMessage
  | .rows relationID change =>
      .logical (.change (change.message relationID
        ((cache[relationID]?.map (·.columns)).getD [])))
  | .truncate relationIDs => .truncate relationIDs

def Edit.record (cache : RelationCache) (batch : ChangeBatch) : Edit → ChangeBatch
  | .rows relationID change =>
      recordChange cache batch (change.message relationID
        ((cache[relationID]?.map (·.columns)).getD []))
  | .truncate _ => batch

/-- A transaction with what goes on around each of its messages.  `asRead` is a row as the
queries of the runtime write it, given its texts in the stream. -/
structure EditedTransaction where
  xid : UInt32
  edits : List (Surroundings × Edit)
  commitLSN : LSN
  transactionEndLSN : LSN
  beginning : Surroundings
  committing : Surroundings
  asRead : RelationID → Row → Row

/-- The rows that a change is about, as they were and as they are. -/
def RowChange.rows : RowChange → List Row
  | .insert new => [new]
  | .update none new _ => [new]
  | .update (some (_, old)) new _ => [old, new]
  | .delete _ old => [old]

/-- The read returns the row if the table has it. -/
def KeyQuery.returns (query : KeyQuery) (row : Row) : Bool :=
  query.keyRows.any (matchesKey query.pkColumns row)

namespace EditedTransaction

variable (transaction : EditedTransaction) (cache : RelationCache)

def messages : List (Surroundings × WalMessage) :=
  (transaction.beginning, .logical (.begin transaction.xid)) ::
    (transaction.edits.map fun edit => (edit.1, edit.2.message cache)) ++
    [(transaction.committing,
      .logical (.commit transaction.commitLSN transaction.transactionEndLSN))]

def batch : ChangeBatch :=
  { transaction.edits.foldl (fun batch edit => edit.2.record cache batch)
      (ChangeBatch.reset transaction.xid) with
    commitLSN := transaction.commitLSN }

def Truncates (relationID : RelationID) : Prop :=
  ∃ edit ∈ transaction.edits, ∃ relationIDs, edit.2 = .truncate relationIDs ∧
    relationID ∈ relationIDs

def Changes (relationID : RelationID) (change : RowChange) : Prop :=
  ∃ edit ∈ transaction.edits, edit.2 = .rows relationID change

/-- The keys in the tuples that are sent for a relation, in order. -/
def sentKeys (relationID : RelationID) (columns : List DescribedColumn) : List Row :=
  transaction.edits.flatMap fun edit =>
    match edit.2 with
    | .rows other change => if other = relationID then change.sentKeys columns else []
    | .truncate _ => []

/-- A row is changed in a relation that is cached and has a primary key. -/
structure ChangesKeys (relationID : RelationID) (metadata : RelationMetadata) : Prop where
  cached : cache[relationID]? = some metadata
  keyed : metadata.pkColumns ≠ []
  changed : ∃ change, transaction.Changes relationID change

end EditedTransaction

namespace Replica

variable [Store σ] [Digest] [LSNText]

end Replica

/-- How a transaction gets at a shape: it truncates a relation that the shape follows or
depends on; it changes a row of one that the shape, which is read as a whole, depends on; the
table is found to be gone; or the keys that are sent for a relation that the shape follows
select every changed row, and the shape can file them. -/
inductive EditedTransaction.Reaches (transaction : EditedTransaction) (cache : RelationCache)
    (active : List State) (relationID : RelationID) (state : State) : Prop where
  | truncated {other : RelationID} {metadata : RelationMetadata}
      (truncates : transaction.Truncates other) (cached : cache[other]? = some metadata)
      (hit : isHitBy state metadata = true)
  | whole {other : RelationID} {metadata : RelationMetadata}
      (changes : transaction.ChangesKeys cache other metadata)
      (dependent : isDependentOn state metadata = true)
  | missing {other : RelationID} {metadata : RelationMetadata} {shape : State}
      (changes : transaction.ChangesKeys cache other metadata) (listed : shape ∈ active)
      (targeted : isTargetedBy shape metadata = true)
      (related : state.relationIndex = shape.relationIndex)
      (gone : (transaction.committing.reads other shape.handle).matching shape.definition
        ((projectedColumns metadata.columns shape.definition.columns).map (·.name)) =
          .error .undefinedTable)
  | keys {other : RelationID} {metadata : RelationMetadata}
      (changes : transaction.ChangesKeys cache other metadata)
      (targeted : isTargetedBy state metadata = true)
      (untruncated : ¬ transaction.Truncates relationID)
      (selected : ∀ change, transaction.Changes relationID change → ∀ row ∈ change.rows,
        ∃ key, Kept (transaction.sentKeys other metadata.columns) key ∧
          Shapes.primaryKeySignature (schemaForColumns
            (projectedColumns metadata.columns state.definition.columns)) key ≠ "" ∧
          matchesKey metadata.pkColumns (transaction.asRead relationID row) key = true)

section Sent

variable {transaction : EditedTransaction} {cache : RelationCache} {relationID : RelationID}
  {metadata : RelationMetadata}

namespace EditedTransaction

/-- The row changes as a transaction of their own. -/
def recorded (transaction : EditedTransaction) (cache : RelationCache) : Transaction where
  xid := transaction.xid
  changes := transaction.edits.filterMap fun edit =>
    match edit.2 with
    | .rows relationID change => some (change.message relationID
        ((cache[relationID]?.map (·.columns)).getD []))
    | .truncate _ => none
  commitLSN := transaction.commitLSN
  transactionEndLSN := transaction.transactionEndLSN

end EditedTransaction

end Sent

section Reached

variable {reads : Reads} {batch : ChangeBatch} {state : State}

theorem ReachedBy.imp {cache : RelationCache} {active other : List State}
    {covered : Option KeyQuery → Prop}
    (reached : ReachedBy reads batch cache active covered state)
    (seen : ∀ shape ∈ active, ∀ relationID metadata, isTargetedBy shape metadata = true →
      findsMissing reads batch state (visitTo relationID metadata shape) = true →
        shape ∈ other) : ReachedBy reads batch cache other covered state := by
  cases reached with
  | whole handled dependent => exact .whole handled dependent
  | missing handled listed targeted found =>
      exact .missing handled (seen _ listed _ _ targeted found) targeted found
  | keys handled targeted enough => exact .keys handled targeted enough

end Reached

section Handling

structure Runtime.SameShapes (one other : Runtime σ) : Prop where
  shapes : one.shapes = other.shapes
  cache : one.relationCache = other.relationCache
  installed : one.installed = other.installed

structure Edited (edits : List (Surroundings × Edit)) (before after : Replica σ) : Prop where
  cache : after.runtime.relationCache = before.runtime.relationCache
  installed : after.runtime.installed = before.runtime.installed
  batch : after.batch = edits.foldl
    (fun batch edit => edit.2.record before.runtime.relationCache batch) before.batch
  shapes : Buries (fun state => ∃ edit ∈ edits, ∃ relationIDs, edit.2 = .truncate relationIDs ∧
    ∃ relationID ∈ relationIDs, ∃ metadata,
      before.runtime.relationCache[relationID]? = some metadata ∧
        isHitBy state metadata = true) before.runtime.shapes after.runtime.shapes

variable {replica next : Replica σ}

theorem Edited.append {first second : List (Surroundings × Edit)} {middle : Replica σ}
    (left : Edited first replica middle) (right : Edited second middle next)
    (named : replica.runtime.shapes.registry.Named State.handle) :
    Edited (first ++ second) replica next := by
  refine ⟨right.cache.trans left.cache, right.installed.trans left.installed, ?_, ?_⟩
  · rw [List.foldl_append, ← left.batch, right.batch, left.cache]
  · refine (left.shapes.trans right.shapes ?_).congr ?_ named
    · intro one other same
      simp [isHitBy_congr same]
    · intro state _
      rw [left.cache]
      simp only [List.mem_append, or_and_right, exists_or]

variable [Store σ] [Digest] [LSNText]

theorem Edited.one (indexed : replica.runtime.shapes.Indexed) {around : Surroundings}
    {edit : Edit} {lsn : LSN}
    (handled : replica.handleLogicalMessage around
      (edit.message replica.runtime.relationCache) = (.ok lsn, next)) :
    Edited [(around, edit)] replica next := by
  cases edit with
  | rows relationID change =>
      obtain ⟨-, rfl⟩ := Prod.mk.inj handled
      refine ⟨rfl, rfl, rfl, (Buries.refl indexed).congr ?_ indexed.named⟩
      simp
  | truncate relationIDs =>
      dsimp only [Edit.message, Replica.handleLogicalMessage] at handled
      cases truncated : untilError
          (truncateRelation replica.runtime.relationCache around.now)
          replica.runtime.shapes relationIDs with
      | mk result after =>
          rw [truncated] at handled
          cases result with
          | error error => cases handled
          | ok _ =>
              obtain ⟨-, rfl⟩ := Prod.mk.inj handled
              refine ⟨rfl, rfl, rfl,
                (truncateRelations_buries indexed truncated).congr ?_ indexed.named⟩
              simp

end Handling

section Reaction

variable [Store σ] [Digest] [LSNText] {replica ready final : Replica σ}
  {transaction : EditedTransaction} {around : Surroundings}
  {commitLSN transactionEndLSN lsn : LSN} {state : State}

end Reaction

section Items

def itemsAround (columns : List DescribedColumn) : Surroundings :=
  let db : Database :=
    { describe := fun _ => .ok columns
      partitionRoot := .ok
      matching := fun _ _ => .ok [itemRow "1" "one", itemRow "2" "two"] }
  { db := db, reads := fun _ _ => db, now := 2000 }

def secondItem (columns : List DescribedColumn) : EditedTransaction where
  xid := 7
  edits := [(itemsAround columns, .rows 1 (.insert (itemRow "2" "two")))]
  commitLSN := 100
  transactionEndLSN := 110
  beginning := itemsAround columns
  committing := itemsAround columns
  asRead := fun _ row => row

end Items

end PostgresSync.Pg
