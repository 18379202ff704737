import PostgresSync.Pg.Table

namespace PostgresSync.Pg

open PostgresSync.Data
open PostgresSync.Shapes

/-! The stream and the queries write values as text, each in its own way.  A key is recorded from
the one and compared with the other. -/

inductive SqlValue where
  | null
  | text (value : String)
  | bool (value : Bool)
deriving DecidableEq, Repr

namespace SqlValue

/-- As pgoutput writes it. -/
def sent : SqlValue → Value
  | .null => none
  | .text value => some value
  | .bool value => some (if value then "t" else "f")

/-- As `::text` writes it. -/
def cast : SqlValue → Value
  | .null => none
  | .text value => some value
  | .bool value => some (if value then "true" else "false")

end SqlValue

abbrev TypedRow := Dict SqlValue

def sentRow (row : TypedRow) : Row := row.map fun _ value => value.sent

def castRow (row : TypedRow) : Row := row.map fun _ value => value.cast

def recordedKey (columns : List DescribedColumn) (row : TypedRow) : Row :=
  primaryKeyRowForColumns (primaryKeyColumns columns)
    (decodeTupleRow columns (some (fullTuple columns (sentRow row))))

/-- The key columns are of type `text` or `bool` and have values of their type. -/
def KeyTyped (columns : List DescribedColumn) (row : TypedRow) : Prop :=
  ∀ column ∈ columns, column.pkIndex.isSome = true →
    (column.type = "text" ∧ ∃ value, row[column.name]? = some (.text value)) ∨
      (column.type = "bool" ∧ ∃ value, row[column.name]? = some (.bool value))

def NoBoolKey (columns : List DescribedColumn) : Prop :=
  ∀ column ∈ columns, column.pkIndex.isSome = true → column.type ≠ "bool"

def refreshedRows (state : State) (schema : Schema) (rows : List Row) (key : Row)
    (metadata : ChangeMetadata) (now : Time) : Dict Row :=
  ((state.refreshKeys ⟨schema, rows, none⟩ [key] metadata now).map
    (·.1.materialized)).getD state.materialized

/-- The recorded key stands for the row: the predicate selects it, its signature is that of the
row, and a refresh replaces or deletes it and no other. -/
structure KeyStandsFor (table : Table) (row : TypedRow) : Prop where
  selects : ∀ other, KeyComplete table.schema other →
    (matchesKey table.metadata.pkColumns other (recordedKey table.columns row) = true ↔
      SameKey table.schema (castRow row) other)
  signs : ∀ definition,
    Shapes.primaryKeySignature (table.schemaFor definition) (recordedKey table.columns row) =
      Shapes.primaryKeySignature (table.schemaFor definition)
        (selectRow (table.projected definition) (castRow row))
  replaces : ∀ definition state, ∀ shown ∈ ([[selectRow (table.projected definition)
      (castRow row)], []] : List (List Row)), ∀ metadata now other,
    KeyComplete table.schema other →
      let rows := refreshedRows state (table.schemaFor definition) shown
        (recordedKey table.columns row) metadata now
      (SameKey table.schema (castRow row) other →
          rows[table.signature other]? = shown.head?) ∧
        (¬ SameKey table.schema (castRow row) other →
          rows[table.signature other]? = state.materialized[table.signature other]?)

section Renderings

variable {table : Table} {row : TypedRow} {name : String}

/-- The two texts of a key value, of a column that is `bool` or not. -/
structure Rendered (table : Table) (row : TypedRow) (name : String) (bool : Bool)
    (sent cast : String) : Prop where
  typed : bool = true ↔ ∃ column ∈ table.columns, column.pkIndex.isSome = true ∧
    column.name = name ∧ column.type = "bool"
  recorded : (recordedKey table.columns row)[name]? = some (some sent)
  read : (castRow row)[name]? = some (some cast)
  shorter : bool = true → sent.toList.length < cast.toList.length
  same : bool = false → sent = cast

theorem getElem?_recordedKey (keyed : name ∈ primaryKeyNames table.schema) :
    (recordedKey table.columns row)[name]? = some ((sentRow row).getD name none) := by
  obtain ⟨column, member, index, rfl⟩ :=
    (mem_primaryKeyNames_schemaForColumns table.distinct).mp keyed
  rw [recordedKey, fullTuple_key table.distinct, keyOf]
  apply Dict.getElem?_ofPairs_map (primaryKeyColumns_nodup table.distinct)
    (fun column => columnValue (sentRow row) column)
  rw [primaryKeyColumns, List.mem_insertionSort, List.mem_filter]
  exact ⟨member, index⟩

theorem rendered (typed : KeyTyped table.columns row)
    (keyed : name ∈ primaryKeyNames table.schema) :
    ∃ bool sent cast, Rendered table row name bool sent cast := by
  have recorded := @getElem?_recordedKey table row name keyed
  rw [sentRow, Std.ExtTreeMap.getD_eq_getD_getElem?, Std.ExtTreeMap.getElem?_map] at recorded
  obtain ⟨column, member, index, rfl⟩ :=
    (mem_primaryKeyNames_schemaForColumns table.distinct).mp keyed
  rcases typed column member index with ⟨type, text, held⟩ | ⟨type, value, held⟩
  · refine ⟨false, text, text, ⟨nofun, ?_⟩, ?_, ?_, nofun, fun _ => rfl⟩
    · rintro ⟨other, known, -, same, bool⟩
      rw [sameColumn table.distinct known member same, type] at bool
      exact absurd bool (by decide)
    · rw [recorded, held]
      rfl
    · rw [castRow, Std.ExtTreeMap.getElem?_map, held]
      rfl
  · refine ⟨true, if value then "t" else "f", if value then "true" else "false",
      ⟨fun _ => ⟨column, member, index, rfl, type⟩, fun _ => rfl⟩, ?_, ?_, fun _ => ?_, nofun⟩
    · rw [recorded, held]
      rfl
    · rw [castRow, Std.ExtTreeMap.getElem?_map, held]
      rfl
    · cases value <;> decide

theorem keyComplete_recordedKey (typed : KeyTyped table.columns row) :
    KeyComplete table.schema (recordedKey table.columns row) := fun _ keyed =>
  have ⟨_, sent, _, texts⟩ := rendered typed keyed
  ⟨sent, texts.recorded⟩

theorem keyComplete_castRow (typed : KeyTyped table.columns row) :
    KeyComplete table.schema (castRow row) := fun _ keyed =>
  have ⟨_, _, cast, texts⟩ := rendered typed keyed
  ⟨cast, texts.read⟩

theorem sameKey_recordedKey (typed : KeyTyped table.columns row)
    (text : NoBoolKey table.columns) :
    SameKey table.schema (recordedKey table.columns row) (castRow row) := by
  intro name keyed
  obtain ⟨bool, sent, cast, texts⟩ := rendered typed keyed
  cases bool with
  | true =>
      obtain ⟨column, member, index, -, type⟩ := texts.typed.mp rfl
      exact absurd type (text column member index)
  | false => rw [texts.recorded, texts.read, texts.same rfl]

theorem length_signature (schema : Schema) (row : Row) :
    (Shapes.primaryKeySignature schema row).toList.length =
      ((primaryKeyNames schema).map fun name => (keyText row name).toList.length).sum +
        ((primaryKeyNames schema).length - 1) := by
  rw [toList_primaryKeySignature, length_intercalate, List.length_map, length_primaryKeyValues,
    primaryKeyValues, List.map_map, List.map_map]
  rfl

theorem noBoolKey_of_signature (typed : KeyTyped table.columns row)
    (same : table.signature (recordedKey table.columns row) = table.signature (castRow row)) :
    NoBoolKey table.columns := by
  intro column member index type
  have keyed : column.name ∈ primaryKeyNames table.schema :=
    (mem_primaryKeyNames_schemaForColumns table.distinct).mpr ⟨column, member, index, rfl⟩
  have lengths (name : String) (listed : name ∈ primaryKeyNames table.schema) :
      (keyText (recordedKey table.columns row) name).toList.length ≤
          (keyText (castRow row) name).toList.length ∧
        (name = column.name → (keyText (recordedKey table.columns row) name).toList.length <
          (keyText (castRow row) name).toList.length) := by
    obtain ⟨bool, sent, cast, texts⟩ := rendered typed listed
    rw [keyText, texts.recorded, keyText, texts.read]
    cases bool with
    | true => exact ⟨(texts.shorter rfl).le, fun _ => texts.shorter rfl⟩
    | false =>
        refine ⟨texts.same rfl ▸ Nat.le_refl _, fun own => ?_⟩
        cases texts.typed.mpr ⟨column, member, index, own.symm, type⟩
  have below := List.sum_lt_sum
    (fun name => (keyText (recordedKey table.columns row) name).toList.length)
    (fun name => (keyText (castRow row) name).toList.length)
    (fun name listed => (lengths name listed).1)
    ⟨column.name, keyed, (lengths column.name keyed).2 rfl⟩
  have total := congrArg (fun text : String => text.toList.length) same
  rw [Table.signature, Table.signature, length_signature, length_signature] at total
  omega

end Renderings

section Refreshed

variable {table : Table} {row : TypedRow} {definition : Definition}

theorem getElem?_refreshedRows (state : State) {shown : List Row} {key : Row}
    (own : ∀ read ∈ shown, Shapes.primaryKeySignature (table.schemaFor definition) read =
      table.signature key) (metadata : ChangeMetadata) (now : Time) (signature : String) :
    (refreshedRows state (table.schemaFor definition) shown key metadata now)[signature]? =
      if signature = table.signature key ∧ signature ≠ "" then
        (materializedRows (table.schemaFor definition) shown)[signature]?
      else
        state.materialized[signature]? := by
  have targeted : signature ∈ targetedKeySet (table.schemaFor definition) [key] shown ↔
      signature = table.signature key ∧ signature ≠ "" := by
    rw [mem_targetedKeySet, and_comm, List.map_append, List.mem_append, List.map_singleton,
      Table.signature_schemaFor, List.mem_singleton]
    refine and_congr_left fun _ => ⟨?_, .inl⟩
    rintro (same | listed)
    · exact same
    · obtain ⟨read, member, rfl⟩ := List.mem_map.mp listed
      exact own read member
  rw [refreshedRows]
  cases computed : state.refreshKeys ⟨table.schemaFor definition, shown, none⟩ [key] metadata
      now with
  | some refreshed =>
      rw [Option.map_some, Option.getD_some, State.refreshKeys_materialized computed,
        getElem?_overlayRows]
      simp only [targeted]
  | none =>
      have empty := State.refreshKeys_eq_none.mp computed
      rw [if_neg fun among =>
        StringSet.not_mem_of_isEmpty empty signature (targeted.mpr among)]
      rfl

theorem signature_congr {left right : Row} (same : SameKey table.schema left right) :
    table.signature left = table.signature right := by
  have values : primaryKeyValues table.schema left = primaryKeyValues table.schema right :=
    List.map_congr_left fun name keyed => by rw [keyText, same name keyed, keyText]
  rw [Table.signature, Shapes.primaryKeySignature, values]
  rfl

theorem primaryKeyNames_ne_nil : primaryKeyNames table.schema ≠ [] := by
  obtain ⟨column, listed⟩ := List.exists_mem_of_ne_nil _ table.keyed
  obtain ⟨member, index⟩ := List.mem_filter.mp ((List.mem_insertionSort _).mp listed)
  exact List.ne_nil_of_mem ((mem_primaryKeyNames_schemaForColumns table.distinct).mpr
    ⟨column, member, index, rfl⟩)

theorem KeyStandsFor.faithful (stands : KeyStandsFor table row)
    (typed : KeyTyped table.columns row) : FaithfulKey table.schema (castRow row) := by
  have own : SameKey table.schema (castRow row) (castRow row) := fun _ _ => rfl
  have signed : table.signature (recordedKey table.columns row) =
      table.signature (castRow row) := by
    have signs := stands.signs { relation := table.relation }
    rwa [Table.signature_schemaFor, Table.signature_selectRow] at signs
  have entries (other : Row) (complete : KeyComplete table.schema other) :=
    stands.replaces { relation := table.relation } {} _ List.mem_cons_self {} 0 other complete
  have shown : table.signature (castRow row) ≠ "" := by
    intro empty
    have entry := (entries _ (keyComplete_castRow typed)).1 own
    rw [getElem?_refreshedRows, empty, if_neg (by simp)] at entry
    · cases entry
    · intro read member
      rw [List.mem_singleton.mp member, Table.signature_selectRow, signed]
  refine ⟨fun other complete => ⟨fun same => ?_, signature_congr⟩, shown⟩
  by_contra different
  have entry := (entries _ (keyComplete_castRow typed)).1 own
  have untouched := (entries other complete).2 different
  rw [show table.signature other = table.signature (castRow row) from same.symm, entry] at untouched
  cases untouched

theorem keyStandsFor_of_faithful (typed : KeyTyped table.columns row)
    (text : NoBoolKey table.columns) (faithful : FaithfulKey table.schema (castRow row)) :
    KeyStandsFor table row := by
  have same := sameKey_recordedKey typed text
  have signed := signature_congr same
  refine ⟨fun other complete => ?_, fun definition => ?_,
    fun definition state shown among metadata now other complete => ?_⟩
  · rw [Table.matchesKey_iff (keyComplete_recordedKey typed) complete]
    exact forall₂_congr fun name keyed => by rw [same name keyed]
  · rw [Table.signature_schemaFor, Table.signature_selectRow, signed]
  · have read : ∀ read ∈ shown, Shapes.primaryKeySignature (table.schemaFor definition) read =
        table.signature (recordedKey table.columns row) := by
      intro read member
      rcases List.mem_pair.mp among with rfl | rfl
      · rw [List.mem_singleton.mp member, Table.signature_selectRow, signed]
      · cases member
    dsimp only
    rw [getElem?_refreshedRows state read, signed]
    constructor
    · intro key
      rw [← signature_congr key, if_pos ⟨rfl, faithful.shown⟩]
      rcases List.mem_pair.mp among with rfl | rfl
      · rw [materializedRows, List.foldl_cons, List.foldl_nil, Table.signature_selectRow]
        simp
      · rfl
    · intro different
      rw [if_neg fun equal => different ((faithful.own other complete).mp equal.1.symm)]

/-- A recorded key stands for its row exactly when no key column is a `bool` and the signature of
the key is its own. -/
theorem recordedKey_stands_iff (table : Table) (row : TypedRow)
    (typed : KeyTyped table.columns row) :
    KeyStandsFor table row ↔
      NoBoolKey table.columns ∧ PlainKey table.schema (castRow row) := by
  have complete := keyComplete_castRow typed
  constructor
  · intro stands
    have signs := stands.signs { relation := table.relation }
    rw [Table.signature_schemaFor, Table.signature_selectRow] at signs
    exact ⟨noBoolKey_of_signature typed signs, (stands.faithful typed).plain complete⟩
  · rintro ⟨text, plain⟩
    exact keyStandsFor_of_faithful typed text (plain.faithful complete primaryKeyNames_ne_nil)

def flagsTable (type : String) : Table where
  relationID := 7
  relation := ⟨"public", "flags"⟩
  columns := [⟨"flag", type, true, some 0⟩, ⟨"name", "text", false, none⟩]
  selects _ _ := true
  distinct := by simp
  keyed := by simp [primaryKeyColumns]

def flagRow (flag : SqlValue) : TypedRow :=
  Dict.ofPairs [("flag", flag), ("name", .text "one")]

theorem textKey_stands : KeyStandsFor (flagsTable "text") (flagRow (.text "t")) := by
  refine (recordedKey_stands_iff (flagsTable "text") (flagRow (.text "t")) ?_).mpr
    ⟨?_, by decide +kernel⟩
  · rintro column member index
    rcases List.mem_pair.mp member with rfl | rfl
    · exact .inl ⟨rfl, "t", by decide +kernel⟩
    · cases index
  · rintro column member index
    rcases List.mem_pair.mp member with rfl | rfl
    · decide
    · cases index

/-- The recorded key of a `bool` selects no row and signs none. -/
theorem boolKey_stands_for_nothing :
    KeyTyped (flagsTable "bool").columns (flagRow (.bool true)) ∧
      matchesKey (flagsTable "bool").metadata.pkColumns (castRow (flagRow (.bool true)))
        (recordedKey (flagsTable "bool").columns (flagRow (.bool true))) = false ∧
      (flagsTable "bool").signature
          (recordedKey (flagsTable "bool").columns (flagRow (.bool true))) = "t" ∧
      (flagsTable "bool").signature (castRow (flagRow (.bool true))) = "true" ∧
      ¬ KeyStandsFor (flagsTable "bool") (flagRow (.bool true)) := by
  refine ⟨?_, by decide +kernel, by decide +kernel, by decide +kernel, fun stands => ?_⟩
  · rintro column member index
    rcases List.mem_pair.mp member with rfl | rfl
    · exact .inr ⟨rfl, true, by decide +kernel⟩
    · cases index
  · have selected := (stands.selects (castRow (flagRow (.bool true))) (by decide +kernel)).mpr
      fun _ _ => rfl
    exact absurd selected (by decide +kernel)

end Refreshed

end PostgresSync.Pg
