import PostgresSync.Pg.Columns
import PostgresSync.Shapes.Definition

namespace PostgresSync.Pg

open PostgresSync.Data
open PostgresSync.Shapes

/-! The keys that the WAL messages of a relation put in the batch, against the
keys of the rows they are about. -/

section Encoding

/-! What pgoutput sends: one cell for each column of the relation, in order.  A
key tuple has the same width with the other cells null, and a column of an
updated row whose stored value did not change may be sent as unchanged. -/

def encodeCell : Value → TupleCell
  | none => ⟨'n', ""⟩
  | some text => ⟨'t', text⟩

@[simp] theorem cellValue_encodeCell (value : Value) :
    cellValue (encodeCell value) = value := by
  cases value <;> rfl

def columnValue (row : Row) (column : DescribedColumn) : Value :=
  row.getD column.name none

def keyValue (row : Row) (column : DescribedColumn) : Value :=
  if column.pkIndex.isSome then columnValue row column else none

def fullTuple (columns : List DescribedColumn) (row : Row) : TupleData :=
  columns.map fun column => encodeCell (columnValue row column)

def keyTuple (columns : List DescribedColumn) (row : Row) : TupleData :=
  columns.map fun column => encodeCell (keyValue row column)

def updatedTuple (columns : List DescribedColumn) (unchanged : List String)
    (row : Row) : TupleData :=
  columns.map fun column =>
    if column.name ∈ unchanged then
      ⟨'u', ""⟩
    else
      encodeCell (columnValue row column)

inductive OldImage where
  | key
  | whole
deriving DecidableEq

def OldImage.tupleType : OldImage → OldTupleType
  | .key => .key
  | .whole => .old

def OldImage.tuple (columns : List DescribedColumn) (row : Row) :
    OldImage → TupleData
  | .key => keyTuple columns row
  | .whole => fullTuple columns row

/-- A change of one row, with the old image the replica identity provides and
the columns the server leaves out as unchanged. -/
inductive RowChange where
  | insert (new : Row)
  | update (old : Option (OldImage × Row)) (new : Row) (unchanged : List String)
  | delete (image : OldImage) (old : Row)

def RowChange.message (relationID : RelationID) (columns : List DescribedColumn) :
    RowChange → TupleMessage
  | .insert new => .insert relationID (fullTuple columns new)
  | .update none new unchanged =>
      .update relationID .none none (updatedTuple columns unchanged new)
  | .update (some (image, old)) new unchanged =>
      .update relationID image.tupleType (some (image.tuple columns old))
        (updatedTuple columns unchanged new)
  | .delete image old =>
      .delete relationID image.tupleType (image.tuple columns old)

end Encoding

section Keys

def keyOf (columns : List DescribedColumn) (row : Row) : Row :=
  Dict.ofPairs ((primaryKeyColumns columns).map fun column =>
    (column.name, columnValue row column))

/-- The old keys and then the new keys that the batch has to hold. -/
def RowChange.keys (columns : List DescribedColumn) : RowChange → List Row
  | .insert new => [keyOf columns new]
  | .update none new _ => [keyOf columns new]
  | .update (some (_, old)) new _ => [keyOf columns old, keyOf columns new]
  | .delete _ old => [keyOf columns old]

/-- The key that is found in an old tuple: of one with the key alone, the first cells are
taken for the key columns in index order. -/
def OldImage.sentKey (columns : List DescribedColumn) (row : Row) : OldImage → Row
  | .key => Dict.ofPairs (((primaryKeyColumns columns).zip columns).map fun pair =>
      (pair.1.name, keyValue row pair.2))
  | .whole => keyOf columns row

def updatedKey (columns : List DescribedColumn) (unchanged : List String) (row : Row) : Row :=
  Dict.ofPairs ((primaryKeyColumns columns).map fun column =>
    (column.name,
      if column.name ∈ unchanged then some "<unchanged-toast>" else columnValue row column))

/-- The keys that are found in the tuples of a change. -/
def RowChange.sentKeys (columns : List DescribedColumn) : RowChange → List Row
  | .insert new => [keyOf columns new]
  | .update none new unchanged => [updatedKey columns unchanged new]
  | .update (some (image, old)) new unchanged =>
      [image.sentKey columns old, updatedKey columns unchanged new]
  | .delete image old => [image.sentKey columns old]

def present (keys : List Row) : List Row :=
  keys.filter fun key => !key.isEmpty

/-- The keys that the records of one message have; those of a relation without a primary
key have none. -/
def recordedKeys (metadata : RelationMetadata) (message : TupleMessage) : List Row :=
  present ((changeRecords metadata message).map (·.primaryKey))

/-- Read as the key columns in index order, the first cells of the key tuple are
the key. -/
def KeyAligned (columns : List DescribedColumn) (row : Row) : Prop :=
  ∀ pair ∈ (primaryKeyColumns columns).zip columns,
    keyValue row pair.2 = columnValue row pair.1

/-- No key column of the updated row is left out as unchanged, unless its value
is the very text that stands for such a cell. -/
def KeySent (columns : List DescribedColumn) (unchanged : List String)
    (row : Row) : Prop :=
  ∀ column ∈ primaryKeyColumns columns, column.name ∈ unchanged →
    columnValue row column = some "<unchanged-toast>"

def OldImage.Decodable (columns : List DescribedColumn) (row : Row) :
    OldImage → Prop
  | .key => KeyAligned columns row
  | .whole => True

def RowChange.Decodable (columns : List DescribedColumn) : RowChange → Prop
  | .insert _ => True
  | .update none new unchanged => KeySent columns unchanged new
  | .update (some (image, old)) new unchanged =>
      image.Decodable columns old ∧ KeySent columns unchanged new
  | .delete image old => image.Decodable columns old

/-- The batch files keys under their signatures: the old and the new key of a change are one,
or are told apart by them. -/
def RowChange.SignaturesApart (columns : List DescribedColumn) (change : RowChange) : Prop :=
  ∀ first ∈ change.keys columns, ∀ second ∈ change.keys columns,
    primaryKeySignature first = primaryKeySignature second → first = second

instance (columns : List DescribedColumn) (row : Row) :
    Decidable (KeyAligned columns row) :=
  inferInstanceAs (Decidable (∀ pair ∈ (primaryKeyColumns columns).zip columns,
    keyValue row pair.2 = columnValue row pair.1))

instance (columns : List DescribedColumn) (unchanged : List String) (row : Row) :
    Decidable (KeySent columns unchanged row) :=
  inferInstanceAs (Decidable (∀ column ∈ primaryKeyColumns columns,
    column.name ∈ unchanged → columnValue row column = some "<unchanged-toast>"))

instance (columns : List DescribedColumn) (change : RowChange) :
    Decidable (change.SignaturesApart columns) :=
  inferInstanceAs (Decidable (∀ first ∈ change.keys columns,
    ∀ second ∈ change.keys columns,
      primaryKeySignature first = primaryKeySignature second → first = second))

end Keys

section Decoding

variable {columns : List DescribedColumn}

theorem primaryKeyColumns_subset {column : DescribedColumn}
    (member : column ∈ primaryKeyColumns columns) : column ∈ columns := by
  rw [primaryKeyColumns, List.mem_insertionSort] at member
  exact List.mem_of_mem_filter member

theorem primaryKeyColumns_length_le :
    (primaryKeyColumns columns).length ≤ columns.length := by
  rw [primaryKeyColumns, List.length_insertionSort]
  exact List.length_filter_le _ _

theorem primaryKeyColumns_nodup (distinct : (columns.map (·.name)).Nodup) :
    ((primaryKeyColumns columns).map (·.name)).Nodup := by
  have sorted : (primaryKeyColumns columns).Perm
      (columns.filter fun column => column.pkIndex.isSome) :=
    List.perm_insertionSort _ _
  rw [(sorted.map _).nodup_iff]
  exact distinct.sublist (List.filter_sublist.map _)

theorem decodeTupleRow_map (described : List DescribedColumn)
    (cell : DescribedColumn → TupleCell) :
    decodeTupleRow described (some (columns.map cell)) =
      Dict.ofPairs ((described.zip columns).map fun pair =>
        (pair.1.name, cellValue (cell pair.2))) := by
  simp [decodeTupleRow, List.zip_map_right, List.map_map, Function.comp_def]

theorem zip_self : columns.zip columns = columns.map fun column => (column, column) := by
  induction columns with
  | nil => rfl
  | cons column rest hypothesis => simp [hypothesis]

theorem map_fst_zip_primaryKeyColumns :
    ((primaryKeyColumns columns).zip columns).map (·.1) = primaryKeyColumns columns :=
  List.map_fst_zip primaryKeyColumns_length_le

theorem zip_primaryKeyColumns_nodup (distinct : (columns.map (·.name)).Nodup) :
    (((primaryKeyColumns columns).zip columns).map fun pair => pair.1.name).Nodup := by
  have keys := primaryKeyColumns_nodup distinct
  rwa [← map_fst_zip_primaryKeyColumns, List.map_map] at keys

theorem primaryKeyRowForColumns_map {items chosen : List β}
    {column : β → DescribedColumn}
    (distinct : (items.map fun item => (column item).name).Nodup)
    (value : β → Value) (included : ∀ item ∈ chosen, item ∈ items) :
    primaryKeyRowForColumns (chosen.map column)
        (Dict.ofPairs (items.map fun item => ((column item).name, value item))) =
      Dict.ofPairs (chosen.map fun item => ((column item).name, value item)) := by
  have found : ∀ item ∈ chosen,
      (Dict.ofPairs (items.map fun item =>
        ((column item).name, value item)))[(column item).name]? =
          some (value item) := fun item member =>
    Dict.getElem?_ofPairs_map distinct value
      (included item member)
  unfold primaryKeyRowForColumns
  split
  · next vacant =>
      cases chosen with
      | nil => rfl
      | cons first rest =>
          have present := found first List.mem_cons_self
          rw [Std.ExtTreeMap.isEmpty_iff.mp vacant] at present
          simp at present
  · rw [List.map_map]
    congr 1
    refine List.map_congr_left fun item member => ?_
    simp [Std.ExtTreeMap.getD_eq_getD_getElem?, found item member]

theorem primaryKeyRow_of_full (distinct : (columns.map (·.name)).Nodup)
    (cell : DescribedColumn → TupleCell) :
    primaryKeyRowForColumns (primaryKeyColumns columns)
        (decodeTupleRow columns (some (columns.map cell))) =
      Dict.ofPairs ((primaryKeyColumns columns).map fun column =>
        (column.name, cellValue (cell column))) := by
  rw [decodeTupleRow_map, zip_self, List.map_map]
  have taken := primaryKeyRowForColumns_map distinct
    (fun column => cellValue (cell column))
    fun column (member : column ∈ primaryKeyColumns columns) =>
      primaryKeyColumns_subset member
  simpa [Function.comp_def] using taken

theorem primaryKeyRow_of_key (distinct : (columns.map (·.name)).Nodup)
    (cell : DescribedColumn → TupleCell) :
    primaryKeyRowForColumns (primaryKeyColumns columns)
        (decodeTupleRow (primaryKeyColumns columns) (some (columns.map cell))) =
      Dict.ofPairs (((primaryKeyColumns columns).zip columns).map fun pair =>
        (pair.1.name, cellValue (cell pair.2))) := by
  rw [decodeTupleRow_map]
  have taken := primaryKeyRowForColumns_map (zip_primaryKeyColumns_nodup distinct)
    (fun pair => cellValue (cell pair.2)) fun _ member => member
  rwa [map_fst_zip_primaryKeyColumns] at taken

theorem keyOf_eq_zip (row : Row) :
    keyOf columns row =
      Dict.ofPairs (((primaryKeyColumns columns).zip columns).map fun pair =>
        (pair.1.name, columnValue row pair.1)) := by
  rw [keyOf]
  conv_lhs => rw [← map_fst_zip_primaryKeyColumns, List.map_map]
  rfl

theorem fullTuple_key (distinct : (columns.map (·.name)).Nodup) (row : Row) :
    primaryKeyRowForColumns (primaryKeyColumns columns)
        (decodeTupleRow columns (some (fullTuple columns row))) =
      keyOf columns row := by
  rw [fullTuple, primaryKeyRow_of_full distinct]
  simp [keyOf]

theorem updatedTuple_key (distinct : (columns.map (·.name)).Nodup) (unchanged : List String)
    (row : Row) :
    primaryKeyRowForColumns (primaryKeyColumns columns)
        (decodeTupleRow columns (some (updatedTuple columns unchanged row))) =
      updatedKey columns unchanged row := by
  rw [updatedTuple, primaryKeyRow_of_full distinct, updatedKey]
  congr 1
  refine List.map_congr_left fun column _ => ?_
  by_cases omitted : column.name ∈ unchanged
  · simp [omitted, cellValue]
  · simp [omitted]

theorem oldTuple_key (distinct : (columns.map (·.name)).Nodup) (relation root : Relation)
    (image : OldImage) (row : Row) :
    primaryKeyRowForColumns (primaryKeyColumns columns)
        (decodeTupleRow
          (oldTupleColumns (metadataFor relation root columns) image.tupleType)
          (some (image.tuple columns row))) =
      image.sentKey columns row := by
  cases image with
  | whole => exact fullTuple_key distinct row
  | key =>
      refine (primaryKeyRow_of_key distinct _).trans ?_
      simp only [cellValue_encodeCell]
      rfl

theorem oldKey_eq_iff (distinct : (columns.map (·.name)).Nodup) (image : OldImage)
    (row : Row) :
    image.sentKey columns row = keyOf columns row ↔ image.Decodable columns row := by
  cases image with
  | whole => exact iff_of_true rfl trivial
  | key =>
      rw [keyOf_eq_zip]
      exact Dict.ofPairs_map_eq_iff (zip_primaryKeyColumns_nodup distinct) _ _

theorem updatedKey_eq_iff (distinct : (columns.map (·.name)).Nodup) (unchanged : List String)
    (row : Row) :
    updatedKey columns unchanged row = keyOf columns row ↔ KeySent columns unchanged row := by
  rw [updatedKey, keyOf, Dict.ofPairs_map_eq_iff (primaryKeyColumns_nodup distinct)]
  refine forall_congr' fun column => forall_congr' fun _ => ?_
  by_cases omitted : column.name ∈ unchanged
  · simp [omitted, eq_comm]
  · simp [omitted]

end Decoding

section Recorded

variable {columns : List DescribedColumn}

theorem recordedKeys_message (distinct : (columns.map (·.name)).Nodup)
    (relation root : Relation) (id : RelationID) (change : RowChange) :
    recordedKeys (metadataFor relation root columns) (change.message id columns) =
      present (change.sentKeys columns) := by
  have old := oldTuple_key distinct relation root
  have new := updatedTuple_key distinct
  cases change with
  | insert row =>
      rw [RowChange.sentKeys, ← fullTuple_key distinct]
      rfl
  | delete image row =>
      rw [RowChange.sentKeys, ← old]
      rfl
  | update sent row unchanged =>
      cases sent with
      | none =>
          have absent : decodeTupleRow columns none = ∅ := rfl
          rw [RowChange.sentKeys, ← new]
          simp [recordedKeys, RowChange.message, changeRecords, updateRecords, present,
            metadataFor, oldTupleColumns, absent, primaryKeyRowForColumns, Function.comp_def]
      | some sent =>
          obtain ⟨image, before⟩ := sent
          rw [RowChange.sentKeys, ← new, ← old]
          simp [recordedKeys, RowChange.message, changeRecords, updateRecords, present,
            metadataFor, Function.comp_def]

theorem present_of_keyless (keyless : primaryKeyColumns columns = []) (change : RowChange) :
    present (change.sentKeys columns) = [] ∧ present (change.keys columns) = [] ∧
      change.Decodable columns := by
  have blank (row : Row) : keyOf columns row = ∅ := by
    simp [keyOf, keyless, Dict.ofPairs]
  have updated (unchanged : List String) (row : Row) :
      updatedKey columns unchanged row = ∅ := by
    simp [updatedKey, keyless, Dict.ofPairs]
  have old (image : OldImage) (row : Row) :
      image.sentKey columns row = ∅ ∧ image.Decodable columns row := by
    cases image <;> simp [OldImage.sentKey, OldImage.Decodable, KeyAligned, keyless, blank,
      Dict.ofPairs]
  rcases change with new | ⟨_ | ⟨image, row⟩, new, unchanged⟩ | ⟨image, row⟩ <;>
    simp [RowChange.sentKeys, RowChange.keys, RowChange.Decodable, KeySent, present,
      keyless, blank, updated, old]

theorem sentKeys_eq_iff (distinct : (columns.map (·.name)).Nodup) (change : RowChange) :
    change.sentKeys columns = change.keys columns ↔ change.Decodable columns := by
  have old := oldKey_eq_iff distinct
  have new := updatedKey_eq_iff distinct
  rcases change with row | ⟨_ | ⟨image, row⟩, row', unchanged⟩ | ⟨image, row⟩ <;>
    simp [RowChange.sentKeys, RowChange.keys, RowChange.Decodable, old, new]

theorem present_eq_self {keys : List Row}
    (named : ∀ key ∈ keys, ∃ name : String, name ∈ key) : present keys = keys := by
  refine List.filter_eq_self.mpr fun key member => ?_
  obtain ⟨name, found⟩ := named key member
  simpa using fun vacant => by simp [vacant] at found

section Named

variable {column : DescribedColumn}

theorem sentKeys_named (distinct : (columns.map (·.name)).Nodup)
    (keyColumn : column ∈ primaryKeyColumns columns) (change : RowChange) :
    ∀ key ∈ change.sentKeys columns, column.name ∈ key := by
  have whole (row : Row) : column.name ∈ keyOf columns row :=
    Dict.mem_ofPairs_map (primaryKeyColumns_nodup distinct) _ keyColumn
  have updated (unchanged : List String) (row : Row) :
      column.name ∈ updatedKey columns unchanged row :=
    Dict.mem_ofPairs_map (primaryKeyColumns_nodup distinct) _ keyColumn
  have old (image : OldImage) (row : Row) : column.name ∈ image.sentKey columns row := by
    cases image with
    | whole => exact whole row
    | key =>
        rw [← map_fst_zip_primaryKeyColumns] at keyColumn
        obtain ⟨pair, member, rfl⟩ := List.mem_map.mp keyColumn
        exact Dict.mem_ofPairs_map (zip_primaryKeyColumns_nodup distinct) _ member
  rcases change with new | ⟨_ | ⟨image, row⟩, new, unchanged⟩ | ⟨image, row⟩ <;>
    simp [RowChange.sentKeys, whole, updated, old]

theorem keys_named (distinct : (columns.map (·.name)).Nodup)
    (keyColumn : column ∈ primaryKeyColumns columns) (change : RowChange) :
    ∀ key ∈ change.keys columns, column.name ∈ key := by
  have named (row : Row) : column.name ∈ keyOf columns row :=
    Dict.mem_ofPairs_map (primaryKeyColumns_nodup distinct) _ keyColumn
  rcases change with new | ⟨_ | ⟨image, old⟩, new, unchanged⟩ | ⟨image, old⟩ <;>
    simp [RowChange.keys, named]

end Named

theorem recordedKeys_eq_iff (relation root : Relation) (id : RelationID)
    (distinct : (columns.map (·.name)).Nodup) (change : RowChange) :
    recordedKeys (metadataFor relation root columns) (change.message id columns) =
        present (change.keys columns) ↔
      change.Decodable columns := by
  rw [recordedKeys_message distinct]
  cases keyed : primaryKeyColumns columns with
  | nil =>
      obtain ⟨sent, keys, decodable⟩ := present_of_keyless keyed change
      simp [sent, keys, decodable]
  | cons column rest =>
      have keyColumn : column ∈ primaryKeyColumns columns := by simp [keyed]
      rw [present_eq_self fun key member =>
          ⟨_, sentKeys_named distinct keyColumn change key member⟩,
        present_eq_self fun key member =>
          ⟨_, keys_named distinct keyColumn change key member⟩]
      exact sentKeys_eq_iff distinct change

end Recorded

section Layouts

def keyFirst : List DescribedColumn :=
  [⟨"id", "text", true, some 0⟩, ⟨"name", "text", false, none⟩]

def keyLast : List DescribedColumn :=
  [⟨"name", "text", false, none⟩, ⟨"id", "text", true, some 0⟩]

def deletedItem : RowChange := .delete .key (itemRow "1" "a")

def itemsMetadata (columns : List DescribedColumn) : RelationMetadata :=
  metadataFor itemsDefinition.relation itemsDefinition.relation columns

end Layouts

end PostgresSync.Pg
