import PostgresSync.Pg.ApplyBatch
import PostgresSync.Pg.Transactions
import PostgresSync.Pg.TupleKeys

namespace PostgresSync.Pg

open PostgresSync.Data
open PostgresSync.Shapes

/-! The keys in the batch of a transaction, against the messages of the transaction. -/

section Filing

variable {changes : Dict ChangeRecord}

def keysOf (changes : Dict ChangeRecord) : List Row := changes.values.map (·.primaryKey)

/-- Every record is filed under the signature of its own key. -/
def Filed (changes : Dict ChangeRecord) : Prop :=
  ∀ (signature : String) (record : ChangeRecord), changes[signature]? = some record →
    primaryKeySignature record.primaryKey = signature

theorem Filed.empty : Filed ∅ := by
  intro signature record found
  rw [Std.ExtTreeMap.getElem?_empty] at found
  cases found

theorem Filed.mem_keysOf (filed : Filed changes) {key : Row} :
    key ∈ keysOf changes ↔
      ∃ record, changes[primaryKeySignature key]? = some record ∧ record.primaryKey = key := by
  rw [keysOf, List.mem_map]
  constructor
  · rintro ⟨record, member, rfl⟩
    obtain ⟨signature, found⟩ := Dict.mem_values.mp member
    rw [← filed signature record found] at found
    exact ⟨record, found, rfl⟩
  · rintro ⟨record, found, rfl⟩
    exact ⟨record, Dict.mem_values.mpr ⟨_, found⟩, rfl⟩

theorem Filed.eq_of_signature (filed : Filed changes) {first second : Row}
    (one : first ∈ keysOf changes) (two : second ∈ keysOf changes)
    (same : primaryKeySignature first = primaryKeySignature second) : first = second := by
  obtain ⟨record, found, rfl⟩ := filed.mem_keysOf.mp one
  obtain ⟨other, known, rfl⟩ := filed.mem_keysOf.mp two
  rw [same, known] at found
  rw [Option.some.inj found]

theorem Filed.fileRecord (filed : Filed changes) (record : ChangeRecord) :
    Filed (fileRecord changes record) := by
  rw [Pg.fileRecord]
  split
  · exact filed
  · intro signature other found
    rw [Std.ExtTreeMap.getElem?_insert] at found
    split at found
    next same =>
        rw [← Option.some.inj found]
        exact Std.LawfulEqCmp.eq_of_compare same
    next => exact filed signature other found

/-- A key takes the place of one with its signature. -/
theorem Filed.mem_keysOf_fileRecord (filed : Filed changes) {record : ChangeRecord}
    (keyed : record.primaryKey ≠ ∅) {key : Row} :
    key ∈ keysOf (Pg.fileRecord changes record) ↔
      key = record.primaryKey ∨
        key ∈ keysOf changes ∧
          primaryKeySignature key ≠ primaryKeySignature record.primaryKey := by
  rw [(filed.fileRecord record).mem_keysOf, filed.mem_keysOf, Pg.fileRecord, if_neg keyed,
    Std.ExtTreeMap.getElem?_insert]
  by_cases same : primaryKeySignature record.primaryKey = primaryKeySignature key
  · simp [same, eq_comm]
  · have differs : key ≠ record.primaryKey := fun equal => same (by rw [equal])
    have apart : ¬ primaryKeySignature key = primaryKeySignature record.primaryKey :=
      fun equal => same equal.symm
    simp [same, differs, apart]

theorem Filed.foldl_fileRecord (filed : Filed changes) (records : List ChangeRecord) :
    Filed (records.foldl Pg.fileRecord changes) := by
  induction records generalizing changes with
  | nil => exact filed
  | cons record rest hypothesis => exact hypothesis (filed.fileRecord record)

/-- Keys that their signatures tell apart are all in the batch afterwards. -/
theorem Filed.mem_keysOf_foldl (filed : Filed changes) (records : List ChangeRecord)
    (apart : ∀ first ∈ present (records.map (·.primaryKey)),
      ∀ second ∈ present (records.map (·.primaryKey)),
        primaryKeySignature first = primaryKeySignature second → first = second) (key : Row) :
    key ∈ keysOf (records.foldl Pg.fileRecord changes) ↔
      key ∈ present (records.map (·.primaryKey)) ∨
        key ∈ keysOf changes ∧ ∀ put ∈ present (records.map (·.primaryKey)),
          primaryKeySignature key ≠ primaryKeySignature put := by
  induction records generalizing changes with
  | nil => simp [present]
  | cons record rest hypothesis =>
      by_cases keyless : record.primaryKey = ∅
      · have skipped : present ((record :: rest).map (·.primaryKey)) =
            present (rest.map (·.primaryKey)) := by
          simp [present, keyless]
        rw [skipped] at apart ⊢
        rw [List.foldl_cons, Pg.fileRecord, if_pos keyless]
        exact hypothesis filed apart
      · have added : present ((record :: rest).map (·.primaryKey)) =
            record.primaryKey :: present (rest.map (·.primaryKey)) := by
          simp [present, keyless]
        rw [added] at apart ⊢
        obtain ⟨own, others⟩ := List.forall_mem_cons.mp apart
        have rested := hypothesis (filed.fileRecord record) fun first one second two =>
          others first one second (List.mem_cons_of_mem _ two)
        rw [List.foldl_cons, rested, filed.mem_keysOf_fileRecord keyless, List.mem_cons,
          List.forall_mem_cons]
        constructor
        · rintro (later | ⟨rfl | ⟨earlier, differs⟩, last⟩)
          · exact .inl (.inr later)
          · exact .inl (.inl rfl)
          · exact .inr ⟨earlier, differs, last⟩
        · rintro ((rfl | later) | ⟨earlier, differs, last⟩)
          · by_cases again : record.primaryKey ∈ present (rest.map (·.primaryKey))
            · exact .inl again
            · refine .inr ⟨.inl rfl, fun put member same => again ?_⟩
              rwa [own put (List.mem_cons_of_mem _ member) same]
          · exact .inl later
          · exact .inr ⟨.inr ⟨earlier, differs⟩, last⟩

end Filing

section Batch

variable {columns : List DescribedColumn} (cache : RelationCache)

/-- The keys that the batch has for a relation. -/
def ChangeBatch.keys (batch : ChangeBatch) (relationID : RelationID) : List Row :=
  (batch.changesForRelation relationID).map (·.primaryKey)

/-- The batch of a transaction while it goes on. -/
def openBatch (xid : UInt32) (earlier : List TupleMessage) : ChangeBatch :=
  earlier.foldl (recordChange cache) (.reset xid)

/-- A message names its rows: its records have their keys, and after it the batch of its
transaction has these keys, and of those it had before the ones with other signatures. -/
structure NamesRows (id : RelationID) (metadata : RelationMetadata) (message : TupleMessage)
    (keys : List Row) : Prop where
  recorded : recordedKeys metadata message = keys
  held : ∀ (xid : UInt32) (earlier : List TupleMessage) (key : Row),
    key ∈ (recordChange cache (openBatch cache xid earlier) message).keys id ↔
      key ∈ keys ∨ key ∈ (openBatch cache xid earlier).keys id ∧
        ∀ put ∈ keys, primaryKeySignature key ≠ primaryKeySignature put
  elsewhere : ∀ (xid : UInt32) (earlier : List TupleMessage) (other : RelationID), other ≠ id →
    (recordChange cache (openBatch cache xid earlier) message).changesForRelation other =
      (openBatch cache xid earlier).changesForRelation other

theorem ChangeBatch.keys_eq (batch : ChangeBatch) (relationID : RelationID) :
    batch.keys relationID = keysOf (batch.byRelation.getD relationID ∅) := by
  rw [ChangeBatch.keys, ChangeBatch.changesForRelation, List.map_map]
  rfl

variable {cache}

theorem filed_openBatch (xid : UInt32) (earlier : List TupleMessage) (id : RelationID) :
    Filed ((openBatch cache xid earlier).byRelation.getD id ∅) := by
  have added := foldl_recordChange cache ⟨xid, earlier, 0, 0⟩ (.reset xid)
  rw [openBatch, added, ChangeBatch.addAll_byRelation]
  exact Filed.empty.foldl_fileRecord _

variable {message : TupleMessage} {metadata : RelationMetadata}

theorem recordChange_eq_addAll (cached : cache[message.relationID]? = some metadata)
    (batch : ChangeBatch) :
    recordChange cache batch message =
      batch.addAll ((changeRecords metadata message).map fun record =>
        (message.relationID, record)) := by
  rw [recordChange, cached, ChangeBatch.addAll, List.foldl_map]

theorem RowChange.message_relationID (change : RowChange) (id : RelationID)
    (columns : List DescribedColumn) :
    (change.message id columns).relationID = id := by
  rcases change with new | ⟨_ | ⟨image, old⟩, new, unchanged⟩ | ⟨image, old⟩ <;> rfl

theorem recordChange_byRelation (cached : cache[message.relationID]? = some metadata)
    (batch : ChangeBatch)
    (other : RelationID) :
    (recordChange cache batch message).byRelation.getD other ∅ =
      if message.relationID = other then
        (changeRecords metadata message).foldl fileRecord (batch.byRelation.getD other ∅)
      else
        batch.byRelation.getD other ∅ := by
  rw [recordChange_eq_addAll cached, ChangeBatch.addAll_byRelation]
  split
  next same => simp [List.filter_map, Function.comp_def, same]
  next differs => simp [List.filter_map, Function.comp_def, differs]

theorem changesForRelation_recordChange (cached : cache[message.relationID]? = some metadata)
    (batch : ChangeBatch)
    {other : RelationID} (differs : message.relationID ≠ other) :
    (recordChange cache batch message).changesForRelation other =
      batch.changesForRelation other := by
  have header : (recordChange cache batch message).xid = batch.xid ∧
      (recordChange cache batch message).commitLSN = batch.commitLSN := by
    rw [recordChange_eq_addAll cached]
    exact ChangeBatch.addAll_header _
  rw [ChangeBatch.changesForRelation, recordChange_byRelation cached, if_neg differs,
    header.1, header.2]
  rfl

theorem NamesRows.signaturesApart {id : RelationID} {keys : List Row}
    (names : NamesRows cache id metadata message (present keys)) {first second : Row}
    (one : first ∈ keys) (two : second ∈ keys)
    (same : primaryKeySignature first = primaryKeySignature second) : first = second := by
  by_cases keyless : first = ∅
  · have empty := primaryKeySignature_eq_empty.mpr keyless
    rw [keyless, primaryKeySignature_eq_empty.mp (same.symm.trans empty)]
  · have keyed : second ≠ ∅ := by
      intro empty
      rw [← primaryKeySignature_eq_empty, ← same, primaryKeySignature_eq_empty] at empty
      exact keyless empty
    have kept {key : Row} (member : key ∈ keys) (filled : key ≠ ∅) :
        key ∈ keysOf ((openBatch cache 0 [message]).byRelation.getD id ∅) := by
      rw [← ChangeBatch.keys_eq]
      refine (names.held 0 [] key).mpr (.inl (List.mem_filter.mpr ⟨member, ?_⟩))
      simpa using filled
    exact (filed_openBatch 0 [message] id).eq_of_signature (kept one keyless)
      (kept two keyed) same

/-- The messages of a relation name the rows they are about exactly when the key tuples are
aligned with the key, no key column is left out as unchanged, and the old key and the new one
do not share a signature. -/
theorem recordChange_names_rows_iff (relation root : Relation) (id : RelationID)
    (distinct : (columns.map (·.name)).Nodup)
    (cached : cache[id]? = some (metadataFor relation root columns)) (change : RowChange) :
    NamesRows cache id (metadataFor relation root columns) (change.message id columns)
        (present (change.keys columns)) ↔
      change.Decodable columns ∧ change.SignaturesApart columns := by
  rw [← recordedKeys_eq_iff relation root id distinct change]
  constructor
  · intro names
    exact ⟨names.recorded, fun first one second two => names.signaturesApart one two⟩
  · rintro ⟨recorded, apart⟩
    rw [← change.message_relationID id columns] at cached
    refine ⟨recorded, fun xid earlier key => ?_, fun xid earlier other differs => ?_⟩
    · have filed : Filed ((openBatch cache xid earlier).byRelation.getD id ∅) :=
        filed_openBatch xid earlier id
      have tells := filed.mem_keysOf_foldl
        (changeRecords (metadataFor relation root columns) (change.message id columns))
      rw [← recordedKeys, recorded] at tells
      rw [ChangeBatch.keys_eq, ChangeBatch.keys_eq, recordChange_byRelation cached,
        change.message_relationID, if_pos rfl]
      refine tells (fun first one second two same => ?_) key
      exact apart first (List.mem_of_mem_filter one) second (List.mem_of_mem_filter two) same
    · apply changesForRelation_recordChange cached
      rw [change.message_relationID]
      exact differs.symm

end Batch

section Transactions

variable {cache : RelationCache} {transaction : Transaction} {relationID : RelationID}
  {metadata : RelationMetadata} {key : Row}

/-- Of the keys with its signature it is the last. -/
def Kept (keys : List Row) (key : Row) : Prop :=
  (present keys).reverse.find? (fun other =>
    primaryKeySignature other = primaryKeySignature key) = some key

namespace Transaction

theorem changedKeyRows_batch : changedKeyRows (transaction.batch cache) relationID =
    ((transaction.batch cache).changesForRelation relationID).map (·.primaryKey) := by
  rw [changedKeyRows, List.filter_eq_self]
  intro key listed
  obtain ⟨record, member, rfl⟩ := List.mem_map.mp listed
  obtain ⟨last, found, rfl⟩ := mem_changes.mp member
  have filled := (filed_signature found).2.1
  rw [Bool.not_eq_true', Bool.eq_false_iff, ne_eq, Std.ExtTreeMap.isEmpty_iff]
  exact filled

theorem relationID_mem_batch (some : changedKeyRows (transaction.batch cache) relationID ≠ []) :
    relationID ∈ (transaction.batch cache).sortedRelationIDs := by
  have start : (ChangeBatch.reset transaction.xid).Listed :=
    ⟨List.nodup_nil, by simp [ChangeBatch.reset]⟩
  obtain ⟨listed, -⟩ := start.addAll (transaction.entries cache)
  have held : relationID ∈
      ((ChangeBatch.reset transaction.xid).addAll (transaction.entries cache)).byRelation := by
    by_contra absent
    apply some
    have vacant : (transaction.batch cache).byRelation.getD relationID ∅ = ∅ :=
      Std.ExtTreeMap.getD_eq_fallback absent
    simp [changedKeyRows, ChangeBatch.changesForRelation, vacant, Dict.values_eq]
  exact (List.perm_insertionSort _ _).mem_iff.mpr ((listed.mem_iff _).mpr held)

theorem mem_dedupeKeyRows_iff (cached : cache[relationID]? = some metadata) :
    key ∈ dedupeKeyRows metadata.pkColumns
        (changedKeyRows (transaction.batch cache) relationID) ↔
      key ∈ changedKeyRows (transaction.batch cache) relationID := by
  rw [changedKeyRows_batch]
  constructor
  · intro member
    obtain ⟨signature, found⟩ := Dict.mem_values.mp member
    have origin := @Dict.forall_ofPairs _ _ (fun key => ∃ other ∈
        ((transaction.batch cache).changesForRelation relationID).map (·.primaryKey),
          key = primaryKeyRowForColumns metadata.pkColumns other) (by
      intro pair listed
      obtain ⟨cut, filed, rfl⟩ := List.mem_map.mp listed
      obtain ⟨other, member, rfl⟩ := List.mem_map.mp (List.mem_of_mem_filter filed)
      exact ⟨other, member, rfl⟩) signature key found
    obtain ⟨other, source, rfl⟩ := origin
    obtain ⟨record, listed, rfl⟩ := List.mem_map.mp source
    obtain ⟨last, filed, rfl⟩ := mem_changes.mp listed
    obtain ⟨known, row, same, own⟩ := records_key (filed_signature filed).1
    obtain rfl := Option.some.inj (same.symm.trans cached)
    have whole : primaryKeyRowForColumns known.pkColumns last.primaryKey =
        last.primaryKey := by
      rw [own, primaryKeyRowForColumns_idempotent]
    rw [show (transaction.stamp last).primaryKey = last.primaryKey from rfl, whole]
    exact List.mem_map.mpr ⟨transaction.stamp last, listed, rfl⟩
  · intro member
    obtain ⟨record, listed, rfl⟩ := List.mem_map.mp member
    exact Transaction.mem_dedupeKeyRows cached listed

end Transaction

end Transactions

section Layouts

def itemsCache (columns : List DescribedColumn) : RelationCache :=
  (∅ : RelationCache).insert 7 (itemsMetadata columns)

theorem recordChange_names_rows_keyFirst :
    NamesRows (itemsCache keyFirst) 7 (itemsMetadata keyFirst)
      (deletedItem.message 7 keyFirst) (present (deletedItem.keys keyFirst)) := by
  refine (recordChange_names_rows_iff itemsDefinition.relation itemsDefinition.relation 7
    (by decide) (by decide +kernel) deletedItem).mpr ⟨?_, by decide +kernel⟩
  show KeyAligned keyFirst (itemRow "1" "a")
  decide +kernel

/-- The name stands first, so the null cell that is sent for it is read as the key. -/
theorem recordChange_keyLast :
    (recordChange (itemsCache keyLast) (.reset 7) (deletedItem.message 7 keyLast)).keys 7 =
        [Dict.ofPairs [("id", none)]] ∧
      present (deletedItem.keys keyLast) = [Dict.ofPairs [("id", some "1")]] ∧
      ¬NamesRows (itemsCache keyLast) 7 (itemsMetadata keyLast)
        (deletedItem.message 7 keyLast) (present (deletedItem.keys keyLast)) := by
  have held : (recordChange (itemsCache keyLast) (.reset 7)
      (deletedItem.message 7 keyLast)).keys 7 = [Dict.ofPairs [("id", none)]] := by
    decide +kernel
  refine ⟨held, by decide +kernel, fun names => ?_⟩
  have missed := (names.held 7 [] (Dict.ofPairs [("id", some "1")])).mpr
    (.inl (by decide +kernel))
  rw [openBatch, List.foldl_nil, held] at missed
  exact absurd missed (by decide +kernel)

end Layouts

end PostgresSync.Pg
