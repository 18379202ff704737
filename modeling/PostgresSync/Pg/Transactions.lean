import PostgresSync.Pg.Queries

namespace PostgresSync.Pg

open PostgresSync.Data
open PostgresSync.Shapes

/-! The batches that a stream of transactions is cut into. -/

inductive LogicalMessage where
  | begin (xid : UInt32)
  | change (message : TupleMessage)
  | commit (commitLSN transactionEndLSN : LSN)

/-- What `handleLogicalMessage` does to the batch, and the batch that it hands to
`applyChangeBatch`. -/
def ChangeBatch.handle (cache : RelationCache) (batch : ChangeBatch) :
    LogicalMessage → ChangeBatch × Option ChangeBatch
  | .begin xid => (.reset xid, none)
  | .change message => (recordChange cache batch message, none)
  | .commit commitLSN _ => (.reset 0, some { batch with commitLSN := commitLSN })

def handedBatches (cache : RelationCache) : ChangeBatch → List LogicalMessage → List ChangeBatch
  | _, [] => []
  | batch, message :: rest =>
      (batch.handle cache message).2.toList ++
        handedBatches cache (batch.handle cache message).1 rest

structure Transaction where
  xid : UInt32
  changes : List TupleMessage
  commitLSN : LSN
  transactionEndLSN : LSN

namespace Transaction

def messages (transaction : Transaction) : List LogicalMessage :=
  .begin transaction.xid :: transaction.changes.map .change ++
    [.commit transaction.commitLSN transaction.transactionEndLSN]

def entries (cache : RelationCache) (transaction : Transaction) :
    List (RelationID × ChangeRecord) :=
  transaction.changes.flatMap fun message =>
    match cache[message.relationID]? with
    | none => []
    | some metadata =>
        (changeRecords metadata message).map fun record => (message.relationID, record)

def records (cache : RelationCache) (transaction : Transaction) (relationID : RelationID) :
    List ChangeRecord :=
  ((transaction.entries cache).filter fun entry => entry.1 = relationID).map (·.2)

def lastRecord (cache : RelationCache) (transaction : Transaction) (relationID : RelationID)
    (key : Row) : Option ChangeRecord :=
  (transaction.records cache relationID).reverse.find? fun record => record.primaryKey = key

end Transaction

/-- The batch of a transaction: for each relation the last record of every key, and no
other; its relations in order; and no key lost when the keys are deduplicated. -/
structure BatchKeeps (cache : RelationCache) (transaction : Transaction) (batch : ChangeBatch) :
    Prop where
  xid : batch.xid = transaction.xid
  commitLSN : batch.commitLSN = transaction.commitLSN
  ascending : batch.sortedRelationIDs.Pairwise (· < ·)
  relations : ∀ relationID, relationID ∈ batch.sortedRelationIDs ↔
    transaction.records cache relationID ≠ []
  kept : ∀ relationID record, record ∈ batch.changesForRelation relationID ↔
    record.primaryKey ≠ ∅ ∧ ∃ last,
      transaction.lastRecord cache relationID record.primaryKey = some last ∧
        record = { last with commitLSN := transaction.commitLSN, xid := transaction.xid }
  distinct : ∀ relationID,
    ((batch.changesForRelation relationID).map (·.primaryKey)).Nodup
  deduped : ∀ relationID metadata, cache[relationID]? = some metadata →
    ∀ record ∈ batch.changesForRelation relationID, record.primaryKey ∈
      dedupeKeyRows metadata.pkColumns
        ((batch.changesForRelation relationID).map (·.primaryKey))

/-- No two keys of a relation have one signature. -/
def SignaturesApart (cache : RelationCache) (transaction : Transaction) : Prop :=
  ∀ relationID, ∀ left ∈ transaction.records cache relationID,
    ∀ right ∈ transaction.records cache relationID,
      primaryKeySignature left.primaryKey = primaryKeySignature right.primaryKey →
        left.primaryKey = right.primaryKey

theorem primaryKeySignature_eq_empty {key : Row} :
    primaryKeySignature key = "" ↔ key = ∅ := by
  constructor
  · intro empty
    have characters := congrArg String.toList empty
    rw [primaryKeySignature, String.toList_intercalate] at characters
    rw [← Std.ExtTreeMap.toList_eq_nil_iff]
    cases entries : key.toList with
    | nil => rfl
    | cons entry rest =>
        rw [entries] at characters
        cases rest <;> simp [List.intercalate] at characters
  · intro empty
    rw [empty]
    rfl

def fileRecord (changes : Dict ChangeRecord) (record : ChangeRecord) : Dict ChangeRecord :=
  if record.primaryKey = ∅ then
    changes
  else
    changes.insert (primaryKeySignature record.primaryKey) record

theorem getElem?_primaryKeyRowForColumns {pkColumns : List DescribedColumn} {row : Row}
    (filled : row.isEmpty = false) (name : String) :
    (primaryKeyRowForColumns pkColumns row)[name]? =
      if name ∈ pkColumns.map (·.name) then some (row.getD name none) else none := by
  have names : (pkColumns.map fun column => (column.name, row.getD column.name none)) =
      (pkColumns.map (·.name)).map fun name => (name, row.getD name none) := by
    rw [List.map_map]
    rfl
  rw [primaryKeyRowForColumns, filled, if_neg Bool.false_ne_true, names,
    Dict.getElem?_ofPairs_names]

theorem primaryKeyRowForColumns_idempotent (pkColumns : List DescribedColumn) (row : Row) :
    primaryKeyRowForColumns pkColumns (primaryKeyRowForColumns pkColumns row) =
      primaryKeyRowForColumns pkColumns row := by
  cases filled : row.isEmpty with
  | true => simp [primaryKeyRowForColumns, filled]
  | false =>
      cases again : (primaryKeyRowForColumns pkColumns row).isEmpty with
      | true =>
          rw [primaryKeyRowForColumns, again, if_pos rfl]
          exact (Std.ExtTreeMap.isEmpty_iff.mp again).symm
      | false =>
          refine Std.ExtTreeMap.ext_getElem? fun name => ?_
          rw [getElem?_primaryKeyRowForColumns again, Std.ExtTreeMap.getD_eq_getD_getElem?,
            getElem?_primaryKeyRowForColumns filled]
          split <;> rfl

section Adding

variable (batch : ChangeBatch) (entries : List (RelationID × ChangeRecord))

def ChangeBatch.addAll : ChangeBatch :=
  entries.foldl (fun batch entry => batch.add entry.1 entry.2) batch

theorem ChangeBatch.add_byRelation (relationID : RelationID) (record : ChangeRecord)
    (other : RelationID) :
    (batch.add relationID record).byRelation.getD other ∅ =
      if relationID = other then fileRecord (batch.byRelation.getD other ∅) record
      else batch.byRelation.getD other ∅ := by
  rw [ChangeBatch.add]
  dsimp only
  rw [Std.ExtTreeMap.getD_insert]
  by_cases same : relationID = other
  · simp [same, fileRecord, primaryKeySignature_eq_empty, Std.ExtTreeMap.getD_eq_getD_getElem?]
  · simp [same]

theorem ChangeBatch.addAll_byRelation (relationID : RelationID) :
    (batch.addAll entries).byRelation.getD relationID ∅ =
      ((entries.filter fun entry => entry.1 = relationID).map (·.2)).foldl fileRecord
        (batch.byRelation.getD relationID ∅) := by
  unfold ChangeBatch.addAll
  induction entries generalizing batch with
  | nil => rfl
  | cons entry rest hypothesis =>
      rw [List.foldl_cons, hypothesis, ChangeBatch.add_byRelation]
      by_cases same : entry.1 = relationID <;> simp [same]

/-- The list of relations has those of the map, each once. -/
structure ChangeBatch.Listed (batch : ChangeBatch) : Prop where
  distinct : batch.relationIDs.Nodup
  mem_iff : ∀ relationID, relationID ∈ batch.relationIDs ↔ relationID ∈ batch.byRelation

variable {batch}

theorem ChangeBatch.Listed.add (listed : batch.Listed) (relationID : RelationID)
    (record : ChangeRecord) :
    (batch.add relationID record).Listed ∧
      ∀ other, other ∈ (batch.add relationID record).relationIDs ↔
        other ∈ batch.relationIDs ∨ other = relationID := by
  have ids : ∀ other, other ∈ (batch.add relationID record).relationIDs ↔
      other ∈ batch.relationIDs ∨ other = relationID := by
    intro other
    rw [ChangeBatch.add]
    dsimp only
    split
    · next known =>
        have member : relationID ∈ batch.relationIDs :=
          (listed.mem_iff relationID).mpr (Std.ExtTreeMap.isSome_getElem?_iff_mem.mp known)
        exact ⟨.inl, fun either => either.elim id (· ▸ member)⟩
    · rw [List.mem_append, List.mem_singleton]
  refine ⟨⟨?_, fun other => ?_⟩, ids⟩
  · rw [ChangeBatch.add]
    dsimp only
    split
    · exact listed.distinct
    · next unknown =>
        refine listed.distinct.append (List.nodup_singleton _) ?_
        intro other member same
        rw [List.mem_singleton.mp same, listed.mem_iff] at member
        exact unknown (Std.ExtTreeMap.isSome_getElem?_iff_mem.mpr member)
  · rw [ids, listed.mem_iff, ChangeBatch.add]
    dsimp only
    rw [Std.ExtTreeMap.mem_insert, Std.LawfulEqCmp.compare_eq_iff_eq, or_comm, eq_comm]

theorem ChangeBatch.Listed.addAll (listed : batch.Listed) :
    (batch.addAll entries).Listed ∧
      ∀ relationID, relationID ∈ (batch.addAll entries).relationIDs ↔
        relationID ∈ batch.relationIDs ∨ ∃ entry ∈ entries, entry.1 = relationID := by
  unfold ChangeBatch.addAll
  induction entries generalizing batch with
  | nil => exact ⟨listed, by simp⟩
  | cons entry rest hypothesis =>
      obtain ⟨next, ids⟩ := listed.add entry.1 entry.2
      obtain ⟨last, later⟩ := hypothesis next
      refine ⟨last, fun relationID => ?_⟩
      rw [List.foldl_cons, later, ids, List.exists_mem_cons_iff, or_assoc, eq_comm]

theorem ChangeBatch.addAll_header :
    (batch.addAll entries).xid = batch.xid ∧
      (batch.addAll entries).commitLSN = batch.commitLSN := by
  unfold ChangeBatch.addAll
  induction entries generalizing batch with
  | nil => exact ⟨rfl, rfl⟩
  | cons entry rest hypothesis => exact hypothesis

end Adding

section Stream

variable (cache : RelationCache)

def Transaction.batch (transaction : Transaction) : ChangeBatch :=
  { (ChangeBatch.reset transaction.xid).addAll (transaction.entries cache) with
    commitLSN := transaction.commitLSN }

theorem handedBatches_changes (changes : List TupleMessage) (batch : ChangeBatch)
    (rest : List LogicalMessage) :
    handedBatches cache batch (changes.map .change ++ rest) =
      handedBatches cache (changes.foldl (recordChange cache) batch) rest := by
  induction changes generalizing batch with
  | nil => rfl
  | cons message changes hypothesis => exact hypothesis (recordChange cache batch message)

theorem foldl_recordChange (transaction : Transaction) (batch : ChangeBatch) :
    transaction.changes.foldl (recordChange cache) batch =
      batch.addAll (transaction.entries cache) := by
  rw [ChangeBatch.addAll, Transaction.entries, List.foldl_flatMap]
  congr 1
  funext batch message
  rw [recordChange]
  cases cache[message.relationID]? with
  | none => rfl
  | some metadata =>
      dsimp only
      rw [List.foldl_map]

theorem handedBatches_eq (transactions : List Transaction) (start : ChangeBatch) :
    handedBatches cache start (transactions.flatMap Transaction.messages) =
      transactions.map (Transaction.batch cache) := by
  induction transactions generalizing start with
  | nil => rfl
  | cons transaction rest hypothesis =>
      have own : handedBatches cache start
          (transaction.messages ++ rest.flatMap Transaction.messages) =
            handedBatches cache (.reset transaction.xid)
              (transaction.changes.map .change ++
                (.commit transaction.commitLSN transaction.transactionEndLSN ::
                  rest.flatMap Transaction.messages)) := by
        simp [Transaction.messages, handedBatches, ChangeBatch.handle]
      rw [List.flatMap_cons, own, handedBatches_changes, foldl_recordChange, List.map_cons,
        ← hypothesis (.reset 0)]
      rfl

section Keeps

variable (transaction : Transaction) (relationID : RelationID)

def Transaction.filed : Dict ChangeRecord :=
  (transaction.records cache relationID).foldl fileRecord ∅

def Transaction.stamp (record : ChangeRecord) : ChangeRecord :=
  { record with commitLSN := transaction.commitLSN, xid := transaction.xid }

variable {cache transaction relationID}

theorem Transaction.changesForRelation_batch :
    (transaction.batch cache).changesForRelation relationID =
      (transaction.filed cache relationID).values.map transaction.stamp := by
  have filed : (transaction.batch cache).byRelation.getD relationID ∅ =
      transaction.filed cache relationID := by
    rw [Transaction.batch]
    dsimp only
    rw [ChangeBatch.addAll_byRelation]
    rfl
  rw [ChangeBatch.changesForRelation, filed, Transaction.batch]
  dsimp only
  rw [(ChangeBatch.addAll_header _).1]
  rfl

theorem Transaction.getElem?_filed (signature : String) :
    (transaction.filed cache relationID)[signature]? =
      (transaction.records cache relationID).reverse.find? fun record =>
        record.primaryKey ≠ ∅ ∧ primaryKeySignature record.primaryKey = signature := by
  have filtered : transaction.filed cache relationID =
      ((transaction.records cache relationID).filter fun record =>
        record.primaryKey ≠ ∅).foldl
        (fun changes record => changes.insert (primaryKeySignature record.primaryKey) record)
        ∅ := by
    rw [Transaction.filed, List.foldl_filter]
    congr 1
    funext changes record
    rw [fileRecord]
    by_cases empty : record.primaryKey = ∅ <;> simp [empty]
  rw [filtered, Dict.getElem?_foldl_insert_last _ _ fun record => record,
    Option.map_id', ← List.filter_reverse, List.find?_filter]
  simp

variable {record : ChangeRecord}

theorem Transaction.filed_signature {signature : String}
    (found : (transaction.filed cache relationID)[signature]? = some record) :
    record ∈ transaction.records cache relationID ∧ record.primaryKey ≠ ∅ ∧
      primaryKeySignature record.primaryKey = signature := by
  rw [Transaction.getElem?_filed] at found
  refine ⟨List.mem_reverse.mp (List.mem_of_find?_eq_some found), ?_⟩
  have matched := List.find?_some found
  exact decide_eq_true_iff.mp matched

theorem Transaction.mem_changes :
    record ∈ (transaction.batch cache).changesForRelation relationID ↔
      ∃ last, (transaction.filed cache relationID)[primaryKeySignature last.primaryKey]? =
        some last ∧ record = transaction.stamp last := by
  rw [Transaction.changesForRelation_batch, List.mem_map]
  constructor
  · intro ⟨last, member, same⟩
    obtain ⟨signature, found⟩ := Dict.mem_values.mp member
    obtain ⟨-, -, rfl⟩ := Transaction.filed_signature found
    exact ⟨last, found, same.symm⟩
  · intro ⟨last, found, same⟩
    exact ⟨last, Dict.mem_values.mpr ⟨_, found⟩, same.symm⟩

theorem Transaction.signatures_nodup :
    (((transaction.batch cache).changesForRelation relationID).map
      fun record => primaryKeySignature record.primaryKey).Nodup := by
  have signatures : ((transaction.batch cache).changesForRelation relationID).map
      (fun record => primaryKeySignature record.primaryKey) =
        (transaction.filed cache relationID).toList.map (·.1) := by
    rw [Transaction.changesForRelation_batch, Dict.values_eq, List.map_map, List.map_map]
    refine List.map_congr_left fun entry member => ?_
    have found := Std.ExtTreeMap.mem_toList_iff_getElem?_eq_some.mp member
    exact (Transaction.filed_signature found).2.2
  rw [signatures, List.Nodup, List.pairwise_map]
  exact Std.ExtTreeMap.distinct_keys_toList.imp fun apart same => apart (by simp [same])

theorem SignaturesApart.getElem?_filed (apart : SignaturesApart cache transaction)
    (member : record ∈ transaction.records cache relationID)
    (keyed : record.primaryKey ≠ ∅) :
    (transaction.filed cache relationID)[primaryKeySignature record.primaryKey]? =
      transaction.lastRecord cache relationID record.primaryKey := by
  rw [Transaction.getElem?_filed, Transaction.lastRecord]
  refine List.find?_congr fun other listed => ?_
  rw [decide_eq_decide]
  constructor
  · intro ⟨_, same⟩
    exact apart relationID other (List.mem_reverse.mp listed) record member same
  · intro same
    rw [same]
    exact ⟨keyed, rfl⟩

theorem Transaction.records_key (member : record ∈ transaction.records cache relationID) :
    ∃ metadata row, cache[relationID]? = some metadata ∧
      record.primaryKey = primaryKeyRowForColumns metadata.pkColumns row := by
  obtain ⟨entry, listed, rfl⟩ := List.mem_map.mp member
  obtain ⟨listed, same⟩ := List.mem_filter.mp listed
  obtain ⟨message, -, made⟩ := List.mem_flatMap.mp listed
  cases cached : cache[message.relationID]? with
  | none =>
      rw [cached] at made
      cases made
  | some metadata =>
      rw [cached] at made
      obtain ⟨record, recorded, rfl⟩ := List.mem_map.mp made
      refine ⟨metadata, ?_⟩
      rw [← of_decide_eq_true same]
      suffices keyed : ∃ row, record.primaryKey =
          primaryKeyRowForColumns metadata.pkColumns row by
        obtain ⟨row, key⟩ := keyed
        exact ⟨row, cached, key⟩
      cases message with
      | insert _ tuple =>
          obtain rfl := List.mem_singleton.mp recorded
          exact ⟨_, rfl⟩
      | update _ oldTupleType oldTuple newTuple =>
          obtain ⟨key, present, rfl⟩ := List.mem_map.mp recorded
          have either := (List.mem_filter.mp present).1
          rcases List.mem_cons.mp either with same | either
          · exact ⟨_, same⟩
          · exact ⟨_, List.mem_singleton.mp either⟩
      | delete _ oldTupleType oldTuple =>
          obtain rfl := List.mem_singleton.mp recorded
          exact ⟨_, rfl⟩

theorem Transaction.lastRecord_some {key : Row} {last : ChangeRecord}
    (found : transaction.lastRecord cache relationID key = some last) :
    last ∈ transaction.records cache relationID ∧ last.primaryKey = key := by
  refine ⟨List.mem_reverse.mp (List.mem_of_find?_eq_some found), ?_⟩
  have matched := List.find?_some found
  exact decide_eq_true_iff.mp matched

theorem Transaction.exists_lastRecord (member : record ∈ transaction.records cache relationID) :
    ∃ last, transaction.lastRecord cache relationID record.primaryKey = some last :=
  Option.isSome_iff_exists.mp (List.find?_isSome.mpr
    ⟨record, List.mem_reverse.mpr member, decide_eq_true rfl⟩)

theorem BatchKeeps.signaturesApart (keeps : BatchKeeps cache transaction
    (transaction.batch cache)) : SignaturesApart cache transaction := by
  intro relationID left leftMember right rightMember same
  by_cases empty : left.primaryKey = ∅
  · rw [← primaryKeySignature_eq_empty, same, primaryKeySignature_eq_empty] at empty
    rw [empty, ← primaryKeySignature_eq_empty, same, empty]
    rfl
  · have filled : right.primaryKey ≠ ∅ := by
      rwa [ne_eq, ← primaryKeySignature_eq_empty, ← same, primaryKeySignature_eq_empty]
    have listed : ∀ record ∈ transaction.records cache relationID, record.primaryKey ≠ ∅ →
        ∃ kept ∈ (transaction.batch cache).changesForRelation relationID,
          kept.primaryKey = record.primaryKey := by
      intro record member keyed
      obtain ⟨last, found⟩ := Transaction.exists_lastRecord member
      have key := (Transaction.lastRecord_some found).2
      refine ⟨transaction.stamp last, (keeps.kept relationID _).mpr ⟨?_, last, ?_, rfl⟩, key⟩
      · exact key ▸ keyed
      · exact key ▸ found
    obtain ⟨first, one, firstKey⟩ := listed left leftMember empty
    obtain ⟨second, two, secondKey⟩ := listed right rightMember filled
    have equal := List.inj_on_of_nodup_map Transaction.signatures_nodup one two
      (by rw [firstKey, secondKey, same])
    rw [← firstKey, ← secondKey, equal]

theorem SignaturesApart.mem_changes (apart : SignaturesApart cache transaction) :
    record ∈ (transaction.batch cache).changesForRelation relationID ↔
      record.primaryKey ≠ ∅ ∧ ∃ last,
        transaction.lastRecord cache relationID record.primaryKey = some last ∧
          record = transaction.stamp last := by
  rw [Transaction.mem_changes]
  constructor
  · rintro ⟨last, found, rfl⟩
    obtain ⟨member, keyed, -⟩ := Transaction.filed_signature found
    exact ⟨keyed, last, (apart.getElem?_filed member keyed).symm.trans found, rfl⟩
  · intro ⟨keyed, last, found, same⟩
    obtain ⟨member, key⟩ := Transaction.lastRecord_some found
    refine ⟨last, ?_, same⟩
    rw [apart.getElem?_filed member (key ▸ keyed), key]
    exact found

theorem Transaction.mem_dedupeKeyRows {metadata : RelationMetadata}
    (cached : cache[relationID]? = some metadata)
    (member : record ∈ (transaction.batch cache).changesForRelation relationID) :
    record.primaryKey ∈ dedupeKeyRows metadata.pkColumns
      (((transaction.batch cache).changesForRelation relationID).map (·.primaryKey)) := by
  have cut : ∀ record ∈ (transaction.batch cache).changesForRelation relationID,
      primaryKeyRowForColumns metadata.pkColumns record.primaryKey = record.primaryKey ∧
        primaryKeySignature record.primaryKey ≠ "" := by
    intro record member
    obtain ⟨last, found, rfl⟩ := Transaction.mem_changes.mp member
    obtain ⟨listed, keyed, -⟩ := Transaction.filed_signature found
    obtain ⟨known, row, same, key⟩ := Transaction.records_key listed
    obtain rfl := Option.some.inj (same.symm.trans cached)
    refine ⟨?_, fun empty => keyed (primaryKeySignature_eq_empty.mp empty)⟩
    change primaryKeyRowForColumns known.pkColumns last.primaryKey = last.primaryKey
    rw [key, primaryKeyRowForColumns_idempotent]
  have keys : (((transaction.batch cache).changesForRelation relationID).map
      (·.primaryKey)).map (primaryKeyRowForColumns metadata.pkColumns) =
        ((transaction.batch cache).changesForRelation relationID).map (·.primaryKey) := by
    rw [List.map_map]
    exact List.map_congr_left fun record member => (cut record member).1
  have signed : (((transaction.batch cache).changesForRelation relationID).map
      (·.primaryKey)).filter (fun key => primaryKeySignature key ≠ "") =
        ((transaction.batch cache).changesForRelation relationID).map (·.primaryKey) := by
    refine List.filter_eq_self.mpr fun key listed => ?_
    obtain ⟨record, member, rfl⟩ := List.mem_map.mp listed
    exact decide_eq_true (cut record member).2
  unfold dedupeKeyRows
  dsimp only
  rw [keys, signed]
  refine Dict.mem_values.mpr ⟨primaryKeySignature record.primaryKey, ?_⟩
  refine Dict.getElem?_ofPairs_of_mem ?_
    (List.mem_map_of_mem (List.mem_map_of_mem member))
  rw [List.map_map, List.map_map]
  exact Transaction.signatures_nodup

theorem SignaturesApart.batchKeeps (apart : SignaturesApart cache transaction) :
    BatchKeeps cache transaction (transaction.batch cache) := by
  have start : (ChangeBatch.reset transaction.xid).Listed :=
    ⟨List.nodup_nil, by simp [ChangeBatch.reset]⟩
  obtain ⟨listed, ids⟩ := start.addAll (transaction.entries cache)
  have permuted := List.perm_insertionSort (· ≤ ·) (transaction.batch cache).relationIDs
  constructor
  case xid => exact (ChangeBatch.addAll_header _).1
  case commitLSN => rfl
  case ascending =>
    have sorted := List.pairwise_insertionSort (· ≤ ·) (transaction.batch cache).relationIDs
    have distinct := permuted.nodup_iff.mpr listed.distinct
    exact (sorted.and distinct).imp fun pair => UInt32.lt_of_le_of_ne pair.1 pair.2
  case relations =>
    intro relationID
    refine (permuted.mem_iff.trans (ids relationID)).trans ?_
    simp [ChangeBatch.reset, Transaction.records]
  case kept =>
    intro relationID record
    exact apart.mem_changes
  case distinct =>
    intro relationID
    refine List.Nodup.of_map primaryKeySignature ?_
    rw [List.map_map]
    exact Transaction.signatures_nodup
  case deduped =>
    intro relationID metadata cached record member
    exact Transaction.mem_dedupeKeyRows cached member

end Keeps

/-- A stream of transactions hands on, for each of them, a batch that keeps its keys, exactly
when no two keys that a transaction touches in one relation have one signature. -/
theorem handedBatches_keep_iff (cache : RelationCache) (start : ChangeBatch)
    (transactions : List Transaction) :
    List.Forall₂ (BatchKeeps cache) transactions
        (handedBatches cache start (transactions.flatMap Transaction.messages)) ↔
      ∀ transaction ∈ transactions, SignaturesApart cache transaction := by
  rw [handedBatches_eq, List.forall₂_map_right_iff, List.forall₂_same]
  exact forall₂_congr fun transaction _ => ⟨BatchKeeps.signaturesApart, SignaturesApart.batchKeeps⟩

section Pairs

def pairsMetadata : RelationMetadata :=
  let columns := [⟨"a", "text", true, some 0⟩, ⟨"b", "text", true, some 1⟩]
  ⟨⟨"public", "pairs"⟩, ⟨"public", "pairs"⟩, columns, columns⟩

def pairsCache : RelationCache := (∅ : RelationCache).insert 1 pairsMetadata

def pairInsert (a b : String) : TupleMessage := .insert 1 [⟨'t', a⟩, ⟨'t', b⟩]

/-- Two rows with different keys that have one signature. -/
def pairsTransaction : Transaction where
  xid := 7
  changes := [pairInsert "1|b=2" "3", pairInsert "1" "2|b=3"]
  commitLSN := 100
  transactionEndLSN := 110

/-- Of two rows that are inserted, the batch has the second only. -/
theorem pairsTransaction_loses_key :
    ((pairsTransaction.records pairsCache 1).map fun record => record.primaryKey.toList) =
        [[("a", some "1|b=2"), ("b", some "3")], [("a", some "1"), ("b", some "2|b=3")]] ∧
      (handedBatches pairsCache {} pairsTransaction.messages).map (fun batch =>
          (batch.changesForRelation 1).map fun record => record.primaryKey.toList) =
        [[[("a", some "1"), ("b", some "2|b=3")]]] ∧
      ¬List.Forall₂ (BatchKeeps pairsCache) [pairsTransaction]
        (handedBatches pairsCache {} ([pairsTransaction].flatMap Transaction.messages)) := by
  refine ⟨by decide +kernel, by decide +kernel, fun kept => ?_⟩
  rw [handedBatches_eq] at kept
  have apart := (List.forall₂_cons.mp kept).1.signaturesApart 1
  have clash : ∃ left ∈ pairsTransaction.records pairsCache 1,
      ∃ right ∈ pairsTransaction.records pairsCache 1,
        primaryKeySignature left.primaryKey = primaryKeySignature right.primaryKey ∧
          left.primaryKey ≠ right.primaryKey := by
    decide +kernel
  obtain ⟨left, one, right, two, same, different⟩ := clash
  exact different (apart left one right two same)

end Pairs

end Stream

end PostgresSync.Pg
