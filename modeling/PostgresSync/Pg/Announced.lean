import PostgresSync.Pg.Replication
import PostgresSync.Pg.ReplicationStart
import PostgresSync.Pg.TupleKeys

namespace PostgresSync.Pg

open PostgresSync.Data
open PostgresSync.Shapes
open PostgresSync.Storage

/-! The cells of a tuple follow the columns that the stream has announced; they are
read along the columns that the catalog described. -/

section Decoding

variable {described : List DescribedColumn} {column other : DescribedColumn} {i j : Nat}

theorem position_unique (distinct : (described.map (·.name)).Nodup)
    (found : described[j]? = some column) (known : described[i]? = some other)
    (same : other.name = column.name) : i = j := by
  obtain ⟨below, -⟩ := List.getElem?_eq_some_iff.mp known
  apply (List.getElem?_inj (by rwa [List.length_map]) distinct).mp
  rw [List.getElem?_map, List.getElem?_map, found, known, Option.map_some, Option.map_some, same]

theorem map_fst_zip_sublist {α β : Type} (lefts : List α) (rights : List β) :
    ((lefts.zip rights).map Prod.fst).Sublist lefts := by
  induction lefts generalizing rights with
  | nil => exact List.Sublist.slnil
  | cons left rest hypothesis =>
      cases rights with
      | nil => exact List.nil_sublist _
      | cons right others => exact (hypothesis others).cons_cons left

theorem getElem?_decodeTupleRow (distinct : (described.map (·.name)).Nodup)
    (found : described[j]? = some column) (tuple : TupleData) :
    (decodeTupleRow described (some tuple))[column.name]? = (tuple[j]?).map cellValue := by
  rw [decodeTupleRow]
  cases sent : tuple[j]? with
  | some cell =>
      have names : ((described.zip tuple).map fun pair => pair.1.name).Nodup := by
        have mapped := ((map_fst_zip_sublist described tuple).map (·.name)).nodup distinct
        rwa [List.map_map] at mapped
      have paired : (column, cell) ∈ described.zip tuple :=
        List.mem_of_getElem? (List.getElem?_zip_eq_some.mpr ⟨found, sent⟩)
      exact Dict.getElem?_ofPairs_map names (fun pair => cellValue pair.2) paired
  | none =>
      apply Dict.getElem?_ofPairs_of_not_mem
      rw [List.map_map]
      intro listed
      obtain ⟨⟨other, cell⟩, paired, same⟩ := List.mem_map.mp listed
      obtain ⟨i, placed⟩ := List.getElem?_of_mem paired
      obtain ⟨known, filled⟩ := List.getElem?_zip_eq_some.mp placed
      rw [position_unique distinct found known same, sent] at filled
      cases filled

end Decoding

/-- The tuples of a message that are as wide as the relation; one of type `K` is read along
the key. -/
def TupleMessage.fullTuples : TupleMessage → Option (List TupleData)
  | .insert _ tuple => some [tuple]
  | .update _ .key _ _ => none
  | .update _ _ none newTuple => some [newTuple]
  | .update _ _ (some oldTuple) newTuple => some [oldTuple, newTuple]
  | .delete _ .key _ => none
  | .delete _ _ oldTuple => some [oldTuple]

def tupleKey (metadata : RelationMetadata) (tuple : TupleData) : Row :=
  primaryKeyRowForColumns metadata.pkColumns (decodeTupleRow metadata.columns (some tuple))

section Announcement

variable (announced : List String) (described : List DescribedColumn) (tuple : TupleData)

/-- Each announced column that the catalog still has is given the cell that was sent for it. -/
def AssignsAsSent : Prop :=
  ∀ (i : Nat) (name : String) (cell : TupleCell), announced[i]? = some name →
    tuple[i]? = some cell →
    name ∈ described.map (·.name) →
      (decodeTupleRow described (some tuple))[name]? = some (cellValue cell)

/-- So is each announced key column of a key. -/
def KeyAsSent (pkColumns : List DescribedColumn) (key : Row) : Prop :=
  ∀ (i : Nat), ∀ column ∈ pkColumns, ∀ cell : TupleCell,
    announced[i]? = some column.name → tuple[i]? = some cell →
      key[column.name]? = some (cellValue cell)

/-- Every column of the key has a value that was sent for it. -/
def WholeKeyAsSent (pkColumns : List DescribedColumn) (key : Row) : Prop :=
  ∀ column ∈ pkColumns, ∃ (i : Nat) (cell : TupleCell), announced[i]? = some column.name ∧
    tuple[i]? = some cell ∧ key[column.name]? = some (cellValue cell)

/-- The rows of a message are as they were sent, and so are, tuple by tuple, the keys that are
recorded for it. -/
structure MessageAsSent (metadata : RelationMetadata) (right : TupleData → Row → Prop)
    (message : TupleMessage) (tuples : List TupleData) : Prop where
  rows : ∀ tuple ∈ tuples, AssignsAsSent announced metadata.columns tuple
  keys : ∃ keys, recordedKeys metadata message = present keys ∧
    List.Forall₂ right tuples keys

def KeyAnnounced (pkColumns : List DescribedColumn) : Prop :=
  ∀ column ∈ pkColumns, column.name ∈ announced

/-- The cell at the place that the catalog gives to an announced column is as the one that was
sent for it. -/
def ReadAsSent : Prop :=
  ∀ (i j : Nat) (name : String), announced[i]? = some name →
    (described.map (·.name))[j]? = some name →
      (tuple[j]?).map cellValue = (tuple[i]?).map cellValue

def InPlace : Prop :=
  ∀ (i j : Nat) (name : String), announced[i]? = some name →
    (described.map (·.name))[j]? = some name → i = j

variable {announced described tuple}

theorem assignsAsSent_iff (distinct : (described.map (·.name)).Nodup)
    (width : tuple.length = announced.length) :
    AssignsAsSent announced described tuple ↔ ReadAsSent announced described tuple := by
  have decoded {j : Nat} {name : String} (placed : (described.map (·.name))[j]? = some name) :
      (decodeTupleRow described (some tuple))[name]? = (tuple[j]?).map cellValue := by
    rw [List.getElem?_map] at placed
    obtain ⟨column, found, rfl⟩ := Option.map_eq_some_iff.mp placed
    exact getElem?_decodeTupleRow distinct found tuple
  constructor
  · intro assigns i j name listed placed
    obtain ⟨below, -⟩ := List.getElem?_eq_some_iff.mp listed
    have sent := List.getElem?_eq_getElem (width.symm ▸ below : i < tuple.length)
    rw [← decoded placed, sent]
    exact assigns i name _ listed sent (List.mem_of_getElem? placed)
  · intro read i name cell listed sent known
    obtain ⟨j, placed⟩ := List.getElem?_of_mem known
    rw [decoded placed, read i j name listed placed, sent]
    rfl

theorem AssignsAsSent.key (assigns : AssignsAsSent announced described tuple)
    (distinct : (described.map (·.name)).Nodup) (relation root : Relation) :
    KeyAsSent announced tuple (primaryKeyColumns described)
      (tupleKey (metadataFor relation root described) tuple) := by
  intro i column keyed cell listed sent
  have member : column ∈ described := primaryKeyColumns_subset keyed
  have value := assigns i column.name cell listed sent (List.mem_map.mpr ⟨column, member, rfl⟩)
  have filled : (decodeTupleRow described (some tuple)).isEmpty = false := by
    rw [Bool.eq_false_iff, ne_eq, Std.ExtTreeMap.isEmpty_iff]
    intro none
    rw [none] at value
    cases value
  show (primaryKeyRowForColumns (primaryKeyColumns described)
    (decodeTupleRow described (some tuple)))[column.name]? = _
  rw [primaryKeyRowForColumns, filled, if_neg Bool.false_ne_true,
    Dict.getElem?_ofPairs_map (primaryKeyColumns_nodup distinct) (fun column => _) keyed,
    Dict.getD_of_getElem? value]

theorem KeyAsSent.whole {pkColumns : List DescribedColumn} {key : Row}
    (asSent : KeyAsSent announced tuple pkColumns key)
    (width : tuple.length = announced.length) (known : KeyAnnounced announced pkColumns) :
    WholeKeyAsSent announced tuple pkColumns key := by
  intro column keyed
  obtain ⟨i, listed⟩ := List.getElem?_of_mem (known column keyed)
  obtain ⟨below, -⟩ := List.getElem?_eq_some_iff.mp listed
  have sent := List.getElem?_eq_getElem (width.symm ▸ below : i < tuple.length)
  exact ⟨i, _, listed, sent, asSent i column keyed _ listed sent⟩

theorem recordedKeys_fullTuples (metadata : RelationMetadata) {message : TupleMessage}
    {tuples : List TupleData} (full : message.fullTuples = some tuples) :
    recordedKeys metadata message = present (tuples.map (tupleKey metadata)) := by
  have stored (keys : List Row) : present (keys.filter fun key => !key.isEmpty) =
      present keys := by
    simp [present]
  cases message with
  | insert relationID tuple =>
      cases full
      rfl
  | update relationID oldTupleType oldTuple newTuple =>
      have recorded : recordedKeys metadata (.update relationID oldTupleType oldTuple newTuple) =
          present [primaryKeyRowForColumns metadata.pkColumns
            (decodeTupleRow (oldTupleColumns metadata oldTupleType) oldTuple),
              tupleKey metadata newTuple] := by
        rw [← stored, recordedKeys, changeRecords, updateRecords, List.map_map]
        exact congrArg present (List.map_id _)
      rw [recorded]
      cases oldTupleType with
      | key => cases full
      | none => cases oldTuple <;> cases full <;> rfl
      | old => cases oldTuple <;> cases full <;> rfl
  | delete relationID oldTupleType oldTuple =>
      cases oldTupleType <;> cases full <;> rfl

def numberedTuple (width : Nat) : TupleData :=
  (List.range width).map fun i => ⟨'t', String.ofList (List.replicate i 'x')⟩

theorem numberedTuple_inj {width i j : Nat} (below : i < width)
    (same : ((numberedTuple width)[j]?).map cellValue =
      ((numberedTuple width)[i]?).map cellValue) : i = j := by
  have number (k : Nat) (short : k < width) : ((numberedTuple width)[k]?).map cellValue =
      some (some (String.ofList (List.replicate k 'x'))) := by
    rw [numberedTuple, List.getElem?_map, List.getElem?_range short]
    rfl
  rw [number i below] at same
  by_cases short : j < width
  · rw [number j short] at same
    have lengths := congrArg List.length (String.ofList_injective (by simpa using same))
    simpa using lengths.symm
  · have absent : (numberedTuple width)[j]? = none := by
      simpa [numberedTuple] using short
    rw [absent] at same
    cases same

theorem messageAsSent_of_read {relation root : Relation} {message : TupleMessage}
    {tuples : List TupleData} {right : TupleData → Row → Prop}
    (distinct : (described.map (·.name)).Nodup) (full : message.fullTuples = some tuples)
    (widths : ∀ tuple ∈ tuples, tuple.length = announced.length)
    (read : ∀ tuple ∈ tuples, ReadAsSent announced described tuple)
    (enough : ∀ tuple key, tuple.length = announced.length →
      KeyAsSent announced tuple (primaryKeyColumns described) key → right tuple key) :
    MessageAsSent announced (metadataFor relation root described) right message tuples := by
  have rows : ∀ tuple ∈ tuples, AssignsAsSent announced described tuple :=
    fun tuple member => (assignsAsSent_iff distinct (widths tuple member)).mpr (read tuple member)
  refine ⟨rows, _, recordedKeys_fullTuples _ full, ?_⟩
  rw [List.forall₂_map_right_iff, List.forall₂_same]
  exact fun tuple member => enough tuple _ (widths tuple member)
    ((rows tuple member).key distinct relation root)

theorem inPlace_of_messages {metadata : RelationMetadata} {right : TupleData → Row → Prop}
    (columns : metadata.columns = described) (distinct : (described.map (·.name)).Nodup)
    (all : ∀ message tuples, message.fullTuples = some tuples →
      (∀ tuple ∈ tuples, tuple.length = announced.length) →
        MessageAsSent announced metadata right message tuples) :
    InPlace announced described ∧ ∃ key, right (numberedTuple announced.length) key := by
  have width : (numberedTuple announced.length).length = announced.length := by
    simp [numberedTuple]
  obtain ⟨rows, keys, -, paired⟩ := all (.insert 0 (numberedTuple announced.length)) _ rfl
    (by simpa using width)
  constructor
  · intro i j name listed placed
    obtain ⟨below, -⟩ := List.getElem?_eq_some_iff.mp listed
    have read := (assignsAsSent_iff distinct width).mp
      (columns ▸ rows _ (List.mem_singleton.mpr rfl))
    exact numberedTuple_inj below (read i j name listed placed)
  · cases paired with
    | cons first _ => exact ⟨_, first⟩

/-- What is cached for a relation are the columns of the catalog.  The cells of a message are
given to the columns that they were sent for exactly when the catalog has the announced columns
at their announced places, or the same value stands where it has them; and the keys recorded
for it are whole when the key is announced. -/
theorem tupleCells_as_announced_iff [Store σ] (announced : List String)
    {described : List DescribedColumn} {db : Database} {now : Time} {runtime : Runtime σ}
    {relationID : RelationID} {relation root : Relation} {metadata : RelationMetadata}
    (describes : db.describeRelation relation = .ok described)
    (rooted : db.lookupPartitionRoot relation = .ok root)
    (cached : (cacheRelationMetadata db now runtime relationID
      relation).2.relationCache[relationID]? = some metadata)
    (distinct : (described.map (·.name)).Nodup) :
    (∀ message tuples, message.fullTuples = some tuples →
      (∀ tuple ∈ tuples, tuple.length = announced.length) →
        (MessageAsSent announced metadata (KeyAsSent announced · metadata.pkColumns) message
            tuples ↔
          ∀ tuple ∈ tuples, ReadAsSent announced described tuple)) ∧
      ((∀ message tuples, message.fullTuples = some tuples →
          (∀ tuple ∈ tuples, tuple.length = announced.length) →
            MessageAsSent announced metadata (KeyAsSent announced · metadata.pkColumns) message
              tuples) ↔
        InPlace announced described) ∧
      ((∀ message tuples, message.fullTuples = some tuples →
          (∀ tuple ∈ tuples, tuple.length = announced.length) →
            MessageAsSent announced metadata (WholeKeyAsSent announced · metadata.pkColumns)
              message tuples) ↔
        InPlace announced described ∧ KeyAnnounced announced (primaryKeyColumns described)) := by
  obtain rfl : metadata = metadataFor relation root described := by
    rw [cacheRelationMetadata_relationCache describes rooted,
      Std.ExtTreeMap.getElem?_insert_self] at cached
    exact (Option.some.inj cached).symm
  have inPlace (places : InPlace announced described) (tuple : TupleData) :
      ReadAsSent announced described tuple :=
    fun i j name listed placed => by rw [places i j name listed placed]
  refine ⟨fun message tuples full widths => ⟨fun asSent tuple member =>
      (assignsAsSent_iff distinct (widths tuple member)).mp (asSent.rows tuple member),
    fun read => messageAsSent_of_read distinct full widths read fun _ _ _ asSent => asSent⟩,
    ⟨fun all => (inPlace_of_messages rfl distinct all).1, fun places message tuples full widths =>
      messageAsSent_of_read distinct full widths (fun tuple _ => inPlace places tuple)
        fun _ _ _ asSent => asSent⟩,
    fun all => ?_, fun ⟨places, known⟩ message tuples full widths =>
      messageAsSent_of_read distinct full widths (fun tuple _ => inPlace places tuple)
        fun _ _ width asSent => asSent.whole width known⟩
  obtain ⟨places, key, whole⟩ := inPlace_of_messages rfl distinct all
  refine ⟨places, fun column keyed => ?_⟩
  obtain ⟨i, -, listed, -⟩ := whole column keyed
  exact List.mem_of_getElem? listed

def computedFirst : List DescribedColumn :=
  [⟨"label", "text", false, none⟩, ⟨"id", "text", true, some 0⟩, ⟨"name", "text", false, none⟩]

def catalogOf (columns : List DescribedColumn) : Database where
  describe := fun _ => .ok columns
  partitionRoot := .ok
  matching := fun _ _ => .ok []

def itemsCached (columns : List DescribedColumn) : Option RelationMetadata :=
  let runtime : Runtime MemoryStore :=
    { cfg := syncConfig
      shapes := { store := newMemoryStore }
      systemIdentity := ⟨"7001", 1, 200⟩ }
  (cacheRelationMetadata (catalogOf columns) 1000 runtime 7
    itemsDefinition.relation).2.relationCache[(7 : RelationID)]?

theorem tupleCells_as_announced_items :
    itemsCached keyFirst = some (itemsMetadata keyFirst) ∧
      MessageAsSent ["id", "name"] (itemsMetadata keyFirst)
        (WholeKeyAsSent ["id", "name"] · (itemsMetadata keyFirst).pkColumns)
        (.insert 7 [⟨'t', "1"⟩, ⟨'t', "one"⟩]) [[⟨'t', "1"⟩, ⟨'t', "one"⟩]] := by
  have cached : itemsCached keyFirst = some (itemsMetadata keyFirst) := by decide +kernel
  obtain ⟨-, -, all⟩ := tupleCells_as_announced_iff ["id", "name"]
    (rfl : (catalogOf keyFirst).describeRelation itemsDefinition.relation = .ok keyFirst) rfl
    cached (by decide)
  have known : KeyAnnounced ["id", "name"] (primaryKeyColumns keyFirst) := by
    unfold KeyAnnounced
    decide +kernel
  refine ⟨cached, all.mpr ⟨fun i j name listed placed => ?_, known⟩ _ _ rfl (by simp)⟩
  obtain ⟨below, -⟩ := List.getElem?_eq_some_iff.mp listed
  exact (List.getElem?_inj below (by decide)).mp (listed.trans placed.symm)

/-- A computed column stands before the key. -/
theorem computedColumn_shifts_cells :
    itemsCached computedFirst = some (itemsMetadata computedFirst) ∧
      ¬ AssignsAsSent ["id", "name"] computedFirst [⟨'t', "1"⟩, ⟨'t', "one"⟩] ∧
      recordedKeys (itemsMetadata computedFirst) (.insert 7 [⟨'t', "1"⟩, ⟨'t', "one"⟩]) =
        [Dict.ofPairs [("id", some "one")]] := by
  refine ⟨by decide +kernel, fun assigns => ?_, by decide +kernel⟩
  have value := assigns 0 "id" ⟨'t', "1"⟩ rfl rfl (by decide)
  exact absurd value (by decide +kernel)

end Announcement

end PostgresSync.Pg
