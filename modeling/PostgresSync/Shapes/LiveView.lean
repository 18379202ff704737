import PostgresSync.Shapes.Refreshes

namespace PostgresSync.Shapes

open PostgresSync.Data

/-! What clients make of snapshots and of logged messages.  A view is compared up to the text
of booleans, which a targeted refresh writes in the short form. -/

/-- What a message does to which row, under the key of the client and under that of the
shape. -/
def Message.deed (message : Message) : String × String × String × Row :=
  (message.key, message.internalKey, message.operation, message.value)

theorem foldl_applyMessage_congr {left right : List Message}
    (same : left.map Message.deed = right.map Message.deed) (view : Dict Row) :
    left.foldl applyMessage view = right.foldl applyMessage view := by
  have deeds (messages : List Message) : messages.foldl applyMessage view =
      (messages.map Message.deed).foldl (fun view deed => view.alter deed.1 fun row =>
        if deed.2.2.1 = "insert" then some deed.2.2.2
        else if deed.2.2.1 = "update" then row.map fun row => row ∪ deed.2.2.2
        else if deed.2.2.1 = "delete" then none
        else row) view := by
    rw [List.foldl_map]
    rfl
  rw [deeds, deeds, same]

section Stamps

variable {current : String} {metadata : ChangeMetadata} {messages : List Message}

theorem stampMessage_deed (index : Nat) (message : Message) :
    (stampMessage current metadata index message).deed = message.deed := by
  unfold stampMessage
  split
  · dsimp only
    split
    · rfl
    · simp [Message.deed, Message.operation]
  · split <;> rfl

theorem markLast_deed : (markLast messages).map Message.deed = messages.map Message.deed := by
  induction messages with
  | nil => rfl
  | cons message rest hypothesis =>
      cases rest with
      | nil => simp [markLast, Message.deed, Message.operation]
      | cons next rest => simpa [markLast] using hypothesis

theorem applyChangeOffsets_deed :
    (applyChangeOffsets current messages metadata).1.map Message.deed =
      messages.map Message.deed := by
  have stamped : (messages.mapIdx (stampMessage current metadata)).map Message.deed =
      messages.map Message.deed := by
    apply List.ext_getElem
    · simp
    · intro index first second
      simp [stampMessage_deed]
  unfold applyChangeOffsets
  dsimp only
  split
  · rw [markLast_deed, stamped]
  · exact stamped

theorem logMessages_deed (state : State) :
    (state.logMessages messages metadata).2.map Message.deed = messages.map Message.deed := by
  unfold State.logMessages
  split
  · next empty => rw [List.isEmpty_iff.mp empty]
  · exact applyChangeOffsets_deed

theorem addDependentTag_deed [Digest] (handle : String) (message : Message) :
    (addDependentTag handle message).deed = message.deed := by
  unfold addDependentTag
  split
  · rfl
  · simp [Message.deed, Message.operation]

theorem decorateDependentSnapshotMessages_deed [Digest] (handle : String)
    (definition : Definition) :
    (decorateDependentSnapshotMessages handle definition messages).map Message.deed =
      messages.map Message.deed := by
  unfold decorateDependentSnapshotMessages
  split
  · rw [List.map_map]
    exact List.map_congr_left fun message _ => addDependentTag_deed handle message
  · rfl

theorem decorateDependentRefreshMessages_deed [Digest] (handle : String)
    {definition : Definition} (own : metadata.keyRelation = definition.relation) :
    (decorateDependentRefreshMessages handle definition messages metadata).map Message.deed =
      messages.map Message.deed := by
  unfold decorateDependentRefreshMessages
  split
  · simp only [own, ne_eq, not_true_eq_false, and_false, decide_false, Bool.false_and,
      Bool.false_eq_true, if_false, List.map_map]
    exact List.map_congr_left fun message _ => addDependentTag_deed handle message
  · rfl

end Stamps

section Shown

variable (schema : Schema)

theorem liveWireValue_idempotent (name : String) (value : Value) :
    liveWireValue schema name (liveWireValue schema name value) =
      liveWireValue schema name value := by
  have settled : liveWireValue schema name value = value ∨
      liveWireValue schema name value = some "t" ∨
        liveWireValue schema name value = some "f" := by
    unfold liveWireValue
    split
    · split
      · exact .inr (.inl rfl)
      · exact .inr (.inr rfl)
      · exact .inl rfl
    · exact .inl rfl
  rcases settled with same | short | short
  · rw [same, same]
  · rw [short]
    simp [liveWireValue]
  · rw [short]
    simp [liveWireValue]

/-- A view with the booleans in their short form. -/
def shownView (view : Dict Row) : Dict Row :=
  view.map fun _ row => applyLiveWireFormatRow schema row

variable {schema}

theorem applyLiveWireFormatRow_idempotent (row : Row) :
    applyLiveWireFormatRow schema (applyLiveWireFormatRow schema row) =
      applyLiveWireFormatRow schema row := by
  refine Std.ExtTreeMap.ext_getElem? fun name => ?_
  simp only [applyLiveWireFormatRow, Std.ExtTreeMap.getElem?_map, Option.map_map]
  congr 1
  funext value
  exact liveWireValue_idempotent schema name value

theorem applyLiveWireFormatRow_union (row value : Row) :
    applyLiveWireFormatRow schema (row ∪ value) =
      applyLiveWireFormatRow schema row ∪ applyLiveWireFormatRow schema value := by
  refine Std.ExtTreeMap.ext_getElem? fun name => ?_
  simp only [applyLiveWireFormatRow, Std.ExtTreeMap.getElem?_map,
    Std.ExtTreeMap.getElem?_union]
  cases value[name]? <;> simp

theorem getElem?_shownView (view : Dict Row) (key : String) :
    (shownView schema view)[key]? = view[key]?.map (applyLiveWireFormatRow schema) := by
  rw [shownView, Std.ExtTreeMap.getElem?_map]

def Message.live (schema : Schema) (message : Message) : Message :=
  { message with
    value := applyLiveWireFormatRow schema message.value
    oldValue := applyLiveWireFormatRow schema message.oldValue }

theorem shownView_applyMessage (view : Dict Row) (message : Message) :
    shownView schema (applyMessage view message) =
      applyMessage (shownView schema view) (message.live schema) := by
  refine Std.ExtTreeMap.ext_getElem? fun key => ?_
  have effect (row : Option Row) :
      (message.effect row).map (applyLiveWireFormatRow schema) =
        (message.live schema).effect (row.map (applyLiveWireFormatRow schema)) := by
    unfold Message.effect Message.live Message.operation
    dsimp only
    split
    · rfl
    · split
      · cases row <;> simp [applyLiveWireFormatRow_union]
      · split <;> rfl
  rw [getElem?_shownView, applyMessage, applyMessage, Dict.getElem?_alter, Dict.getElem?_alter,
    getElem?_shownView, getElem?_shownView]
  show Option.map _ (if message.key = key then _ else _) = if message.key = key then _ else _
  split
  · exact effect _
  · rfl

theorem shownView_foldl (messages : List Message) (view : Dict Row) :
    shownView schema (messages.foldl applyMessage view) =
      (applyLiveWireFormat schema messages).foldl applyMessage (shownView schema view) := by
  unfold applyLiveWireFormat
  induction messages generalizing view with
  | nil => rfl
  | cons message rest hypothesis =>
      rw [List.foldl_cons, hypothesis, shownView_applyMessage]
      rfl

theorem applyLiveWireFormat_deed {left right : List Message}
    (same : left.map Message.deed = right.map Message.deed) :
    (applyLiveWireFormat schema left).map Message.deed =
      (applyLiveWireFormat schema right).map Message.deed := by
  have deeds (messages : List Message) : (applyLiveWireFormat schema messages).map Message.deed =
      (messages.map Message.deed).map fun deed =>
        (deed.1, deed.2.1, deed.2.2.1, applyLiveWireFormatRow schema deed.2.2.2) := by
    rw [applyLiveWireFormat, List.map_map, List.map_map]
    rfl
  rw [deeds, deeds, same]

theorem applyLiveWireFormat_idempotent (messages : List Message) :
    applyLiveWireFormat schema (applyLiveWireFormat schema messages) =
      applyLiveWireFormat schema messages := by
  simp [applyLiveWireFormat, applyLiveWireFormatRow_idempotent]

theorem shownView_foldl_congr {left right : List Message} {view other : Dict Row}
    (same : left.map Message.deed = right.map Message.deed ∨
      left.map Message.deed = (applyLiveWireFormat schema right).map Message.deed)
    (shown : shownView schema view = shownView schema other) :
    shownView schema (left.foldl applyMessage view) =
      shownView schema (right.foldl applyMessage other) := by
  rw [shownView_foldl, shownView_foldl, shown]
  apply foldl_applyMessage_congr
  rcases same with same | same
  · exact applyLiveWireFormat_deed same
  · rw [applyLiveWireFormat_deed same, applyLiveWireFormat_idempotent]

end Shown

section Patches

variable {definition : Definition} {schema : Schema} {previous current : Dict Row}

theorem shownView_injective_keys {view other : Dict Row}
    (shown : shownView schema view = shownView schema other) (key : String) :
    view[key]? = none ↔ other[key]? = none := by
  have same : (shownView schema view)[key]? = (shownView schema other)[key]? := by rw [shown]
  rw [getElem?_shownView, getElem?_shownView] at same
  rw [← Option.map_eq_none_iff, same, Option.map_eq_none_iff]

theorem diffRows_patch_iff (keyed : primaryKeyNames schema ≠ [])
    (before : SignedRows schema previous) (after : SignedRows schema current)
    (alike : AlikeColumns previous current) (relation : Relation) :
    shownView schema ((diffRows definition schema previous current relation).foldl applyMessage
        (clientView relation schema previous)) =
      shownView schema (clientView relation schema current) ↔
        KeysKept schema previous current := by
  constructor
  · intro patched key old new held found
    by_contra moved
    have apart (row : Row) (own : String)
        (listed : previous[own]? = some row ∨ current[own]? = some row)
        (same : messageKey relation schema row = messageKey relation schema old) :
        own = key := by
      rcases listed with listed | listed
      · exact before.key_eq keyed before listed held same
      · exact after.key_eq keyed before listed held same
    have renamed : messageKey relation schema new ≠ messageKey relation schema old :=
      fun same => moved (primaryKeyValues_eq_of_messageKey keyed same).symm
    -- the view keeps the row under its old key, which no message is about
    have kept : ((diffRows definition schema previous current relation).foldl applyMessage
        (clientView relation schema previous))[messageKey relation schema old]? = some old := by
      unfold applyMessage
      rw [Dict.getElem?_foldl_alter_of_ne, clientView]
      · exact (before.getElem?_viewOf keyed).mpr ⟨key, old, held, rfl, rfl⟩
      · intro message member same
        obtain ⟨own, -, made⟩ := List.mem_filterMap.mp member
        obtain ⟨-, -, row, either, shown⟩ := diffRow_sent made
        rw [shown] at same
        obtain rfl := apart row own ((Option.or_eq_some_iff.mp either).symm.imp (·.2) id) same
        rw [found, Option.some_or, Option.some.injEq] at either
        exact renamed (either ▸ same)
    have gone : (clientView relation schema current)[messageKey relation schema old]? =
        none := by
      rw [clientView]
      refine after.getElem?_viewOf_eq_none keyed fun own row listed same => ?_
      obtain rfl := apart row own (.inr listed) same
      rw [found, Option.some.injEq] at listed
      exact renamed (listed ▸ same)
    rw [← shownView_injective_keys patched, kept] at gone
    cases gone
  · intro kept
    have change : RowChange schema previous current := ⟨keyed, before, after, kept⟩
    rw [change.foldl_applyMessage alike]

end Patches

section Snapshots

variable {definition : Definition} {schema : Schema}

/-- Rows of a table: they have its columns, and no two of them have one primary key. -/
structure TableRows (schema : Schema) (rows : List Row) : Prop where
  columns : ∀ row ∈ rows, ∀ name, name ∈ row ↔ name ∈ schema
  complete : ∀ row ∈ rows, KeyComplete schema row
  unique : ∀ first ∈ rows, ∀ second ∈ rows, SameKey schema first second → first = second

instance (schema : Schema) (rows : List Row) : Decidable (TableRows schema rows) :=
  decidable_of_iff
    ((∀ row ∈ rows, (∀ name ∈ row.keys, name ∈ schema) ∧ ∀ name ∈ schema.keys, name ∈ row) ∧
      (∀ row ∈ rows, KeyComplete schema row) ∧
      ∀ first ∈ rows, ∀ second ∈ rows, SameKey schema first second → first = second) <| by
    simp only [Std.ExtTreeMap.mem_keys]
    constructor
    · intro ⟨columns, complete, unique⟩
      refine ⟨fun row member name => ⟨?_, ?_⟩, complete, unique⟩
      · exact (columns row member).1 name
      · exact (columns row member).2 name
    · intro table
      refine ⟨fun row member => ⟨fun name => ?_, fun name => ?_⟩, table.complete, table.unique⟩
      · exact (table.columns row member name).mp
      · exact (table.columns row member name).mpr

instance (schema : Schema) (rows : List Row) : Decidable (SignaturesDiffer schema rows) :=
  inferInstanceAs (Decidable (∀ first ∈ rows, ∀ second ∈ rows, _ → _))

instance (schema : Schema) (previous current : Dict Row) :
    Decidable (KeysKept schema previous current) :=
  decidable_of_iff (∀ key old, previous[key]? = some old → ∀ new ∈ current[key]?,
      primaryKeyValues schema old = primaryKeyValues schema new) <| by
    constructor
    · intro kept key old new held found
      exact kept key old held new found
    · intro kept key old held new found
      exact kept key old new held found

theorem materializedRows_signed (schema : Schema) (rows : List Row) :
    SignedRows schema (materializedRows schema rows) :=
  fun _ _ found => (getElem?_materializedRows found).2

variable {rows : List Row}

theorem TableRows.eq_of_values (table : TableRows schema rows) {first second : Row}
    (one : first ∈ rows) (two : second ∈ rows)
    (same : primaryKeyValues schema first = primaryKeyValues schema second) :
    first = second :=
  table.unique first one second two
    (((table.complete first one).sameKey_iff (table.complete second two)).mpr same)

def snapshotView (relation : Relation) (schema : Schema) (rows : List Row) : Dict Row :=
  rows.foldl (fun view row => view.insert (messageKey relation schema row) row) ∅

theorem buildSnapshotMessages_view {snapshot : SnapshotResult}
    (logged : definition.log ≠ "changes_only") :
    (buildSnapshotMessages definition snapshot).foldl applyMessage ∅ =
      snapshotView definition.relation snapshot.schema snapshot.rows := by
  rw [buildSnapshotMessages, if_neg logged, List.foldl_map, snapshotView]
  congr 1
  funext view row
  refine Std.ExtTreeMap.ext_getElem? fun key => ?_
  rw [applyMessage, Dict.getElem?_alter, Dict.getElem?_insert]
  rfl

theorem TableRows.getElem?_snapshotView (table : TableRows schema rows)
    (keyed : primaryKeyNames schema ≠ []) (relation : Relation) {shown : String} {row : Row} :
    (snapshotView relation schema rows)[shown]? = some row ↔
      row ∈ rows ∧ messageKey relation schema row = shown := by
  have lookup : (snapshotView relation schema rows)[shown]? =
      rows.reverse.find? fun row => messageKey relation schema row = shown := by
    rw [snapshotView, Dict.getElem?_foldl_insert_last _ _ fun row => row, Option.map_id']
    simp
  rw [lookup]
  constructor
  · intro found
    refine ⟨List.mem_reverse.mp (List.mem_of_find?_eq_some found), ?_⟩
    have matched := List.find?_some found
    exact decide_eq_true_iff.mp matched
  · intro ⟨member, same⟩
    have some : (rows.reverse.find? fun row =>
        messageKey relation schema row = shown).isSome = true :=
      List.find?_isSome.mpr ⟨row, List.mem_reverse.mpr member, decide_eq_true same⟩
    obtain ⟨other, found⟩ := Option.isSome_iff_exists.mp some
    have listed := List.mem_reverse.mp (List.mem_of_find?_eq_some found)
    have matched := List.find?_some found
    rw [found, table.eq_of_values listed member (primaryKeyValues_eq_of_messageKey keyed
      ((decide_eq_true_iff.mp matched).trans same.symm))]

theorem TableRows.snapshotView_iff (table : TableRows schema rows)
    (keyed : primaryKeyNames schema ≠ []) (relation : Relation) :
    shownView schema (snapshotView relation schema rows) =
        shownView schema (clientView relation schema (materializedRows schema rows)) ↔
      SignaturesDiffer schema rows := by
  have signed := materializedRows_signed schema rows
  constructor
  · intro same first one second two equal
    -- each of the two is the row that the shape has under their signature
    obtain ⟨held, found⟩ := Option.isSome_iff_exists.mp
      (@isSome_materializedRows schema rows first one)
    have listed := (getElem?_materializedRows found).1
    have own (row : Row) (member : row ∈ rows)
        (signature : primaryKeySignature schema row = primaryKeySignature schema first) :
        row = held := by
      have shown : (snapshotView relation schema rows)[messageKey relation schema row]? =
          some row := (table.getElem?_snapshotView keyed relation).mpr ⟨member, rfl⟩
      have present : (clientView relation schema (materializedRows schema rows))[
          messageKey relation schema row]? ≠ none := by
        rw [ne_eq, ← shownView_injective_keys same, shown]
        simp
      obtain ⟨other, viewed⟩ := Option.ne_none_iff_exists'.mp present
      rw [clientView] at viewed
      obtain ⟨key, next, known, named, -⟩ := (signed.getElem?_viewOf keyed).mp viewed
      have values := primaryKeyValues_eq_of_messageKey keyed named
      have place : key = primaryKeySignature schema first := by
        rw [← signed key next known, ← signature, primaryKeySignature, primaryKeySignature,
          values]
      rw [place, found, Option.some.injEq] at known
      rw [known]
      exact table.eq_of_values member (known ▸ listed) values.symm
    rw [own first one rfl, own second two equal.symm]
  · intro differ
    congr 1
    refine Std.ExtTreeMap.ext_getElem? fun shown => Option.ext fun row => ?_
    rw [table.getElem?_snapshotView keyed, clientView, signed.getElem?_viewOf keyed]
    constructor
    · rintro ⟨member, same⟩
      exact ⟨_, row, differ.getElem?_materializedRows.mpr ⟨member, rfl⟩, same, rfl⟩
    · rintro ⟨key, next, found, same, rfl⟩
      exact ⟨(getElem?_materializedRows found).1, same⟩

end Snapshots

section Refreshing

structure FiledRows (schema : Schema) (rows : Dict Row) : Prop where
  signed : SignedRows schema rows
  columns : ∀ (key : String) (row : Row), rows[key]? = some row →
    ∀ name, name ∈ row ↔ name ∈ schema

variable {schema : Schema} {state : State} {snapshot : SnapshotResult}
  {metadata : ChangeMetadata} {now : Time}

theorem FiledRows.alike {previous current : Dict Row} (before : FiledRows schema previous)
    (after : FiledRows schema current) : AlikeColumns previous current :=
  fun key old new held found name =>
    (before.columns key old held name).trans (after.columns key new found name).symm

theorem TableRows.filed {rows : List Row} (table : TableRows schema rows) :
    FiledRows schema (materializedRows schema rows) where
  signed := materializedRows_signed schema rows
  columns _ row found := table.columns row (getElem?_materializedRows found).1

theorem FiledRows.overlay {materialized rows : Dict Row} (filed : FiledRows schema materialized)
    (read : FiledRows schema rows) (keys : StringSet) :
    FiledRows schema (State.overlayRows materialized rows keys) := by
  have origin (key : String) (row : Row)
      (found : (State.overlayRows materialized rows keys)[key]? = some row) :
      rows[key]? = some row ∨ materialized[key]? = some row := by
    rw [getElem?_overlayRows] at found
    split at found
    · exact .inl found
    · exact .inr found
  constructor
  · intro key row found
    rcases origin key row found with found | found
    · exact read.signed key row found
    · exact filed.signed key row found
  · intro key row found
    rcases origin key row found with found | found
    · exact read.columns key row found
    · exact filed.columns key row found

theorem keysKept_overlayRows_iff {materialized : Dict Row} (signed : SignedRows schema materialized)
    (keyRows rows : List Row) :
    KeysKept schema materialized (State.overlayRows materialized (materializedRows schema rows)
        (targetedKeySet schema keyRows rows)) ↔
      KeysKept schema materialized (materializedRows schema rows) := by
  constructor
  · intro kept key old new held found
    obtain ⟨member, signature⟩ := getElem?_materializedRows found
    by_cases asked : key ∈ targetedKeySet schema keyRows rows
    · apply kept key old new held
      rw [getElem?_overlayRows, if_pos asked]
      exact found
    · -- only the empty signature is left out, and it belongs to one key
      have empty : key = "" := by
        by_contra filled
        apply asked
        rw [mem_targetedKeySet, ← signature]
        exact ⟨signature ▸ filled,
          List.mem_map_of_mem (List.mem_append_right keyRows member)⟩
      have own := signed key old held
      apply primaryKeyValues_eq_of_signature _ (own.trans signature.symm)
      intro several
      exact absurd (own.trans empty) (primaryKeySignature_ne_empty several)
  · intro kept key old new held found
    rw [getElem?_overlayRows] at found
    split at found
    · exact kept key old new held found
    · rw [held, Option.some.injEq] at found
      rw [found]

theorem State.refreshKeys_deeds {keyRows : List Row} {refreshed : State × List Message}
    (computed : state.refreshKeys snapshot keyRows metadata now = some refreshed)
    (own : metadata.keyRelation = state.definition.relation)
    (committed : 0 < metadata.commitLSN) :
    refreshed.2.map Message.deed =
      (applyLiveWireFormat snapshot.schema (diffRows state.definition snapshot.schema
        state.materialized refreshed.1.materialized state.definition.relation)).map
          Message.deed := by
  have materialized := State.refreshKeys_materialized computed
  unfold State.refreshKeys at computed
  dsimp only at computed
  split at computed
  · cases computed
  · obtain rfl := Option.some.inj computed
    rw [logMessages_deed, materialized, own, ite_self, diffRows_subset]
    intro key absent
    rw [getElem?_overlayRows, if_neg absent]

theorem State.refresh_deeds [Digest] (state : State) (snapshot : SnapshotResult) (now : Time)
    (own : metadata.keyRelation = state.definition.relation) :
    (state.refresh snapshot metadata now).2.map Message.deed =
      (diffRows state.definition snapshot.schema state.materialized
        (state.refresh snapshot metadata now).1.materialized
        state.definition.relation).map Message.deed := by
  rw [State.refresh_materialized]
  unfold State.refresh
  dsimp only
  rw [logMessages_deed]
  split
  · exact decorateDependentRefreshMessages_deed _ own
  · rfl

theorem patched_iff {next : State} {messages : List Message} {view : Dict Row}
    (keyed : primaryKeyNames schema ≠ []) (before : FiledRows schema state.materialized)
    (after : FiledRows schema next.materialized)
    (deeds : messages.map Message.deed = (diffRows state.definition schema state.materialized
          next.materialized state.definition.relation).map Message.deed ∨
      messages.map Message.deed = (applyLiveWireFormat schema (diffRows state.definition schema
          state.materialized next.materialized state.definition.relation)).map Message.deed)
    (shown : shownView schema view =
      shownView schema (clientView state.definition.relation schema state.materialized)) :
    shownView schema (messages.foldl applyMessage view) =
        shownView schema (clientView state.definition.relation schema next.materialized) ↔
      KeysKept schema state.materialized next.materialized := by
  rw [shownView_foldl_congr deeds shown]
  exact diffRows_patch_iff keyed before.signed after.signed (before.alike after) _

end Refreshing

end PostgresSync.Shapes
