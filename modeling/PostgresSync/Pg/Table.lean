import PostgresSync.Pg.BatchKeys
import PostgresSync.Pg.Projection
import PostgresSync.Shapes.RowIdentity
import PostgresSync.Shapes.Refreshes

namespace PostgresSync.Pg

open PostgresSync.Data
open PostgresSync.Shapes

/-! A table of the database, the rows that definitions select from it, and what the queries
of the runtime answer while it has given rows. -/

/-- A table with a primary key.  `selects` is the test that the clauses of a definition make of
one row. -/
structure Table where
  relationID : RelationID
  relation : Relation
  columns : List DescribedColumn
  selects : Definition → Row → Bool
  distinct : (columns.map (·.name)).Nodup
  keyed : primaryKeyColumns columns ≠ []

namespace Table

variable (table : Table)

def metadata : RelationMetadata := metadataFor table.relation table.relation table.columns

def schema : Schema := schemaForColumns table.columns

def database (rows : List Row) : Database where
  describe relation := .ok (if relation = table.relation then table.columns else [])
  partitionRoot := .ok
  matching definition _ :=
    if definition.relation = table.relation then
      .ok (rows.filter (table.selects definition))
    else
      .error .undefinedTable

def projected (definition : Definition) : List DescribedColumn :=
  projectedColumns table.columns definition.columns

def schemaFor (definition : Definition) : Schema := schemaForColumns (table.projected definition)

def selected (definition : Definition) (rows : List Row) : List Row :=
  (rows.filter (table.selects definition)).map (selectRow (table.projected definition))

/-- The rows of a shape that has all that its definition selects. -/
def expected (definition : Definition) (rows : List Row) : Dict Row :=
  materializedRows (table.schemaFor definition) (table.selected definition rows)

/-- The rows of the table keep the constraint of a primary key. -/
structure Holds (rows : List Row) : Prop where
  complete : ∀ row ∈ rows, KeyComplete table.schema row
  unique : ∀ first ∈ rows, ∀ second ∈ rows, SameKey table.schema first second → first = second

def cache : RelationCache := (∅ : RelationCache).insert table.relationID table.metadata

def keys (transaction : Transaction) : List Row :=
  changedKeyRows (transaction.batch table.cache) table.relationID

def signature (row : Row) : String := Shapes.primaryKeySignature table.schema row

variable {table}

theorem columns_ne_nil : table.columns ≠ [] := by
  intro none
  apply table.keyed
  rw [none]
  rfl

section Columns

variable {definition : Definition}

theorem primaryKeyNames_schemaFor :
    primaryKeyNames (table.schemaFor definition) = primaryKeyNames table.schema :=
  primaryKeyNames_projectedColumns table.distinct

theorem signature_schemaFor (row : Row) :
    Shapes.primaryKeySignature (table.schemaFor definition) row = table.signature row := by
  rw [Shapes.primaryKeySignature, primaryKeyValues, primaryKeyNames_schemaFor]
  rfl

theorem signature_selectRow (row : Row) :
    Shapes.primaryKeySignature (table.schemaFor definition)
      (selectRow (table.projected definition) row) = table.signature row := by
  rw [Shapes.primaryKeySignature, schemaFor, projected,
    primaryKeyValues_selectRow table.distinct]
  rfl

end Columns

section Keys

variable {transaction : Transaction} {key row : Row} {rows : List Row}

theorem matchesKey_iff (keyComplete : KeyComplete table.schema key)
    (rowComplete : KeyComplete table.schema row) :
    matchesKey table.metadata.pkColumns row key = true ↔ SameKey table.schema key row := by
  have names : ∀ column, column ∈ table.metadata.pkColumns ↔
      column ∈ table.columns ∧ column.pkIndex.isSome = true := by
    intro column
    show column ∈ primaryKeyColumns table.columns ↔ _
    rw [primaryKeyColumns, List.mem_insertionSort, List.mem_filter]
  rw [matchesKey, List.all_eq_true]
  constructor
  · intro matched name keyed
    obtain ⟨column, member, index, rfl⟩ :=
      (mem_primaryKeyNames_schemaForColumns table.distinct).mp keyed
    have equal := matched column ((names column).mpr ⟨member, index⟩)
    obtain ⟨text, found⟩ := keyComplete _ keyed
    obtain ⟨other, known⟩ := rowComplete _ keyed
    rw [Dict.getD_of_getElem? known, Dict.getD_of_getElem? found] at equal
    rw [found, known]
    simpa [valueText] using (of_decide_eq_true equal).symm
  · intro same column member
    obtain ⟨listed, index⟩ := (names column).mp member
    have keyed := (mem_primaryKeyNames_schemaForColumns table.distinct).mpr
      ⟨column, listed, index, rfl⟩
    obtain ⟨text, found⟩ := keyComplete _ keyed
    have known := same _ keyed
    rw [found] at known
    rw [Dict.getD_of_getElem? known.symm, Dict.getD_of_getElem? found]
    simp [valueText]

theorem cached : table.cache[table.relationID]? = some table.metadata := by
  simp [cache]

theorem mem_dedupeKeyRows :
    key ∈ dedupeKeyRows table.metadata.pkColumns (table.keys transaction) ↔
      key ∈ table.keys transaction :=
  Transaction.mem_dedupeKeyRows_iff cached

end Keys

section Reading

variable {definition : Definition} {rows : List Row} {transaction : Transaction}

theorem snapshot_database (ours : definition.relation = table.relation) :
    snapshot (table.database rows) definition =
      .ok ⟨table.schemaFor definition, table.selected definition rows, none⟩ := by
  have described : (table.database rows).describeRelation definition.relation =
      .ok table.columns := by
    rw [Database.describeRelation, database]
    dsimp only
    rw [if_pos ours]
    cases columns : table.columns with
    | nil => exact absurd columns columns_ne_nil
    | cons column rest => rfl
  rw [snapshot, described]
  simp [queryRows, database, ours, schemaFor, selected, projected]

theorem snapshot_database_missing (other : definition.relation ≠ table.relation) :
    snapshot (table.database rows) definition =
      .error (.relationNotFound definition.relation) := by
  simp [snapshot, Database.describeRelation, database, other]

/-- The keys of the transaction are told by their signatures. -/
structure Faithful (transaction : Transaction) : Prop where
  complete : ∀ key ∈ table.keys transaction, KeyComplete table.schema key
  faithful : ∀ key ∈ table.keys transaction, FaithfulKey table.schema key

theorem snapshotChangedKeys_database (ours : definition.relation = table.relation)
    (holds : table.Holds rows) (faithful : table.Faithful transaction)
    (some : table.keys transaction ≠ []) :
    ∃ restricted, snapshotChangedKeys (table.database rows) definition table.metadata
        (table.keys transaction) = .ok ⟨table.schemaFor definition, restricted, none⟩ ∧
      Restricts (table.schemaFor definition) (table.keys transaction)
        (table.selected definition rows) restricted := by
  have asked : dedupeKeyRows table.metadata.pkColumns (table.keys transaction) ≠ [] := by
    obtain ⟨key, member⟩ := List.exists_mem_of_ne_nil _ some
    exact List.ne_nil_of_mem (mem_dedupeKeyRows.mpr member)
  have keyed : table.metadata.pkColumns ≠ [] := table.keyed
  refine ⟨((rows.filter (table.selects definition)).filter fun row =>
      (dedupeKeyRows table.metadata.pkColumns (table.keys transaction)).any
        (matchesKey table.metadata.pkColumns row)).map
      (selectRow (table.projected definition)), ?_, ?_⟩
  · rw [snapshotChangedKeys]
    simp only [List.isEmpty_iff, keyed, some, asked, if_false]
    simp [queryRows, database, ours, schemaFor, projected, metadata, metadataFor]
  · intro shown
    have signed (row : Row) : row ∈ rows →
        ((dedupeKeyRows table.metadata.pkColumns (table.keys transaction)).any
          (matchesKey table.metadata.pkColumns row) = true ↔
        table.signature row ∈ (table.keys transaction).map table.signature) := by
      intro listed
      rw [List.any_eq_true, List.mem_map]
      refine exists_congr fun key => ?_
      rw [mem_dedupeKeyRows]
      refine and_congr_right fun member => ?_
      have whole := holds.complete row listed
      rw [matchesKey_iff (faithful.complete key member) whole]
      exact ((faithful.faithful key member).own row whole).symm
    have signatures : (table.keys transaction).map
        (Shapes.primaryKeySignature (table.schemaFor definition)) =
          (table.keys transaction).map table.signature :=
      List.map_congr_left fun key _ => signature_schemaFor key
    rw [signatures, selected, List.mem_map, List.mem_map]
    constructor
    · rintro ⟨row, member, rfl⟩
      obtain ⟨listed, matched⟩ := List.mem_filter.mp member
      refine ⟨⟨row, listed, rfl⟩, ?_⟩
      rw [signature_selectRow]
      exact (signed row (List.mem_of_mem_filter listed)).mp matched
    · rintro ⟨⟨row, listed, rfl⟩, among⟩
      rw [signature_selectRow] at among
      exact ⟨row, List.mem_filter.mpr
        ⟨listed, (signed row (List.mem_of_mem_filter listed)).mpr among⟩, rfl⟩

end Reading

end Table

end PostgresSync.Pg
