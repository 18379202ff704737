import PostgresSync.Shapes.ChangeLog
import PostgresSync.Shapes.RowIdentity

namespace PostgresSync.Shapes

open PostgresSync.Data

/-! The rows that a client keeps under the keys of the messages it is sent. -/

/-- What a change message does to the row of its key. -/
def Message.effect (message : Message) (row : Option Row) : Option Row :=
  if message.operation = "insert" then
    some message.value
  else if message.operation = "update" then
    row.map fun row => row ∪ message.value
  else if message.operation = "delete" then
    none
  else
    row

def applyMessage (view : Dict Row) (message : Message) : Dict Row :=
  view.alter message.key message.effect

/-- What a client keeps of each row, under the key of the row's messages. -/
def viewOf (relation : Relation) (schema : Schema) (keep : String → Row → α)
    (rows : Dict Row) : Dict α :=
  Dict.ofPairs (rows.toList.map fun entry =>
    (messageKey relation schema entry.2, keep entry.1 entry.2))

def clientView (relation : Relation) (schema : Schema) (rows : Dict Row) : Dict Row :=
  viewOf relation schema (fun _ row => row) rows

def SignedRows (schema : Schema) (rows : Dict Row) : Prop :=
  ∀ (key : String) (row : Row), rows[key]? = some row → primaryKeySignature schema row = key

/-- Rows over one set of columns, each under its signature. -/
structure KeyedRows (schema : Schema) (columns : StringSet) (rows : Dict Row) : Prop where
  signed : SignedRows schema rows
  clean : ∀ (key : String) (row : Row), rows[key]? = some row →
    1 < (primaryKeyNames schema).length →
      ∀ value ∈ primaryKeyValues schema row, '\x1f' ∉ value.toList
  columns : ∀ (key : String) (row : Row), rows[key]? = some row →
    ∀ name, name ∈ row ↔ name ∈ columns

section Views

variable {relation : Relation} {schema : Schema} {columns : StringSet}
  {rows others : Dict Row}

theorem SignedRows.key_eq (keyed : primaryKeyNames schema ≠ []) (left : SignedRows schema rows)
    (right : SignedRows schema others) {key other : String} {row next : Row}
    (found : rows[key]? = some row) (known : others[other]? = some next)
    (same : messageKey relation schema row = messageKey relation schema next) :
    key = other := by
  have values := primaryKeyValues_eq_of_messageKey keyed same
  rw [← left key row found, ← right other next known, primaryKeySignature,
    primaryKeySignature, values]

theorem SignedRows.getElem?_viewOf (keyed : primaryKeyNames schema ≠ [])
    (signed : SignedRows schema rows) {keep : String → Row → α} {shown : String} {value : α} :
    (viewOf relation schema keep rows)[shown]? = some value ↔
      ∃ key row, rows[key]? = some row ∧ messageKey relation schema row = shown ∧
        keep key row = value := by
  have distinct : ((rows.toList.map fun entry =>
      (messageKey relation schema entry.2, keep entry.1 entry.2)).map (·.1)).Nodup := by
    rw [List.map_map, List.Nodup, List.pairwise_map]
    refine List.Pairwise.imp_of_mem ?_ Std.ExtTreeMap.distinct_keys_toList
    intro left right member other different same
    have equal := signed.key_eq keyed signed
      (Std.ExtTreeMap.mem_toList_iff_getElem?_eq_some.mp member)
      (Std.ExtTreeMap.mem_toList_iff_getElem?_eq_some.mp other) same
    exact different (by simp [equal])
  constructor
  · intro found
    by_contra absent
    have missing : shown ∉ (rows.toList.map fun entry =>
        (messageKey relation schema entry.2, keep entry.1 entry.2)).map (·.1) := by
      intro member
      rw [List.map_map] at member
      obtain ⟨entry, listed, same⟩ := List.mem_map.mp member
      have held := Dict.getElem?_ofPairs_of_mem distinct (List.mem_map_of_mem listed)
      rw [show messageKey relation schema entry.2 = shown from same] at held
      obtain rfl := Option.some.inj (held.symm.trans found)
      exact absent ⟨entry.1, entry.2,
        Std.ExtTreeMap.mem_toList_iff_getElem?_eq_some.mp listed, same, rfl⟩
    rw [viewOf, Dict.getElem?_ofPairs_of_not_mem missing] at found
    cases found
  · intro ⟨key, row, held, same, kept⟩
    rw [← same, ← kept]
    exact Dict.getElem?_ofPairs_of_mem distinct (List.mem_map.mpr
      ⟨(key, row), Std.ExtTreeMap.mem_toList_iff_getElem?_eq_some.mpr held, rfl⟩)

theorem SignedRows.getElem?_viewOf_eq_none (keyed : primaryKeyNames schema ≠ [])
    (signed : SignedRows schema rows) {keep : String → Row → α} {shown : String}
    (absent : ∀ (own : String) (row : Row), rows[own]? = some row →
      messageKey relation schema row ≠ shown) :
    (viewOf relation schema keep rows)[shown]? = none := by
  cases found : (viewOf relation schema keep rows)[shown]? with
  | none => rfl
  | some value =>
      obtain ⟨key, row, held, same, -⟩ := (signed.getElem?_viewOf keyed).mp found
      exact absurd same (absent key row held)

end Views

section Changes

variable {definition : Definition} {schema : Schema} {relation : Relation} {key : String}
  {old new : Option Row} {message : Message}

def changeOperation : Option Row → Option Row → String
  | none, some _ => "insert"
  | some _, none => "delete"
  | _, _ => "update"

theorem diffRow_sent
    (sent : diffRow definition schema relation key old new = some message) :
    message.headers = operationHeaders (changeOperation old new) definition.relation ∧
      message.internalKey = key ∧
      ∃ row, new.or old = some row ∧ message.key = messageKey relation schema row := by
  cases old with
  | none =>
      cases new with
      | none => cases sent
      | some new =>
          obtain rfl := Option.some.inj sent
          exact ⟨rfl, rfl, new, rfl, rfl⟩
  | some old =>
      cases new with
      | none =>
          obtain rfl := Option.some.inj sent
          exact ⟨rfl, rfl, old, rfl, rfl⟩
      | some new =>
          rw [diffRow] at sent
          split at sent
          · cases sent
          · obtain ⟨values, -, rfl⟩ := Option.map_eq_some_iff.mp sent
            exact ⟨rfl, rfl, new, rfl, rfl⟩

theorem diffRow_operation
    (sent : diffRow definition schema relation key old new = some message) :
    message.operation = changeOperation old new := by
  rw [Message.operation, (diffRow_sent sent).1]
  rfl

theorem changeOperation_eq_delete {previous current : Dict Row} :
    changeOperation previous[key]? current[key]? = "delete" ↔ key ∈ previous ∧ key ∉ current := by
  rw [Dict.mem_iff_exists, Dict.mem_iff_exists]
  cases previous[key]? <;> cases current[key]? <;> simp [changeOperation]

theorem changeOperation_mem (old new : Option Row) :
    changeOperation old new ∈ ["insert", "update", "delete"] := by
  unfold changeOperation
  split <;> decide

end Changes

def KeysKept (schema : Schema) (previous current : Dict Row) : Prop :=
  ∀ (key : String) (old new : Row), previous[key]? = some old → current[key]? = some new →
    primaryKeyValues schema old = primaryKeyValues schema new

structure RowChange (schema : Schema) (previous current : Dict Row) : Prop where
  keyed : primaryKeyNames schema ≠ []
  before : SignedRows schema previous
  after : SignedRows schema current
  kept : KeysKept schema previous current

namespace RowChange

variable {relation : Relation} {schema : Schema} {previous current : Dict Row}
  (change : RowChange schema previous current)

include change

theorem messageKey_eq_iff {key other : String} {row next : Row}
    (held : previous[key]? = some row ∨ current[key]? = some row)
    (known : previous[other]? = some next ∨ current[other]? = some next) :
    messageKey relation schema row = messageKey relation schema next ↔ key = other := by
  constructor
  · intro same
    rcases held with held | held <;> rcases known with known | known
    · exact change.before.key_eq change.keyed change.before held known same
    · exact change.before.key_eq change.keyed change.after held known same
    · exact change.after.key_eq change.keyed change.before held known same
    · exact change.after.key_eq change.keyed change.after held known same
  · rintro rfl
    have values : primaryKeyValues schema row = primaryKeyValues schema next := by
      rcases held with held | held <;> rcases known with known | known
      · rw [Option.some.inj (held.symm.trans known)]
      · exact change.kept key row next held known
      · exact (change.kept key next row known held).symm
      · rw [Option.some.inj (held.symm.trans known)]
    rw [messageKey, messageKey, values]

theorem getElem?_viewOf {rows : Dict Row} (one : rows = previous ∨ rows = current)
    {keep : String → Row → α} {key : String} {row : Row}
    (held : previous[key]? = some row ∨ current[key]? = some row) :
    (viewOf relation schema keep rows)[messageKey relation schema row]? =
      rows[key]?.map (keep key) := by
  have signed : SignedRows schema rows := by
    rcases one with rfl | rfl
    · exact change.before
    · exact change.after
  have within : ∀ {other : String} {next : Row}, rows[other]? = some next →
      previous[other]? = some next ∨ current[other]? = some next := by
    intro other next known
    rcases one with rfl | rfl
    · exact .inl known
    · exact .inr known
  cases found : rows[key]? with
  | some own =>
      exact (signed.getElem?_viewOf change.keyed).mpr
        ⟨key, own, found, (change.messageKey_eq_iff (within found) held).mpr rfl, rfl⟩
  | none =>
      apply signed.getElem?_viewOf_eq_none change.keyed
      intro other own known same
      obtain rfl := (change.messageKey_eq_iff (within known) held).mp same
      rw [found] at known
      cases known

theorem diffRow_key_eq_iff {definition : Definition} {key own : String} {message : Message}
    {row : Row}
    (sent : diffRow definition schema relation own previous[own]? current[own]? = some message)
    (held : previous[key]? = some row ∨ current[key]? = some row) :
    message.key = messageKey relation schema row ↔ own = key := by
  obtain ⟨-, -, other, known, same⟩ := diffRow_sent sent
  rw [same]
  apply change.messageKey_eq_iff _ held
  exact (Option.or_eq_some_iff.mp known).symm.imp (·.2) id

end RowChange

section Updates

variable {old new : Row}

theorem mem_changedColumns {name : String} :
    name ∈ changedColumns old new ↔
      (name ∈ new ∧ old.getD name none ≠ new.getD name none) ∨ (name ∈ old ∧ name ∉ new) := by
  rw [changedColumns, List.mem_append, List.mem_map]
  refine or_congr ?_ (by simp [Bool.eq_false_iff])
  constructor
  · rintro ⟨entry, member, same⟩
    obtain ⟨listed, differs⟩ := List.mem_filter.mp member
    have found := Std.ExtTreeMap.mem_toList_iff_getElem?_eq_some.mp listed
    rw [← same, Dict.getD_of_getElem? found]
    exact ⟨Dict.mem_iff_exists.mpr ⟨_, found⟩, by simpa using differs⟩
  · rintro ⟨member, differs⟩
    obtain ⟨value, found⟩ := Dict.mem_iff_exists.mp member
    rw [Dict.getD_of_getElem? found] at differs
    refine ⟨(name, value), List.mem_filter.mpr ⟨?_, by simpa using differs⟩, rfl⟩
    exact Std.ExtTreeMap.mem_toList_iff_getElem?_eq_some.mpr found

theorem getElem?_insertColumns (names : List String) (base : Row) (name : String) :
    (names.foldl (fun value name => value.insert name (new.getD name none)) base)[name]? =
      if name ∈ names then some (new.getD name none) else base[name]? := by
  induction names generalizing base with
  | nil => simp
  | cons first rest hypothesis =>
      rw [List.foldl_cons, hypothesis, Dict.getElem?_insert]
      by_cases later : name ∈ rest
      · simp [later]
      · by_cases same : first = name
        · simp [same]
        · simp [later, same, Ne.symm same]

theorem union_updateValues {definition : Definition} {schema : Schema} {values : Row × Row}
    (columns : ∀ name, name ∈ old ↔ name ∈ new)
    (updated : updateValues definition schema old new = some values) :
    old ∪ values.1 = new := by
  refine Std.ExtTreeMap.ext_getElem? fun name => ?_
  rw [Std.ExtTreeMap.getElem?_union]
  have absent : new[name]? = none → old[name]? = none := by
    intro missing
    have gone : name ∉ old := by
      rw [columns name, Dict.mem_iff_exists, missing]
      simp
    exact Std.ExtTreeMap.getElem?_eq_none gone
  unfold updateValues at updated
  dsimp only at updated
  split at updated
  · cases updated
  · split at updated
    · obtain rfl := Option.some.inj updated
      cases found : new[name]? with
      | some value => simp
      | none => simp [absent found]
    · obtain rfl := Option.some.inj updated
      dsimp only
      rw [getElem?_insertColumns]
      cases found : new[name]? with
      | none =>
          have unlisted : name ∉ changedColumns old new := by
            rw [mem_changedColumns, Dict.mem_iff_exists, Dict.mem_iff_exists, found,
              absent found]
            simp
          simp [unlisted, primaryKeyRow, Std.ExtTreeMap.getElem?_filter, found, absent found]
      | some value =>
          have valued := Dict.getD_of_getElem? found none
          by_cases changed : name ∈ changedColumns old new
          · simp [changed, valued]
          · -- an unchanged column is the same in the old row, whether it is sent or not
            have member : name ∈ new := Dict.mem_iff_exists.mpr ⟨value, found⟩
            obtain ⟨before, held⟩ := Dict.mem_iff_exists.mp ((columns name).mpr member)
            have same : before = value := by
              rw [mem_changedColumns, valued, Dict.getD_of_getElem? held] at changed
              by_contra different
              exact changed (.inl ⟨member, different⟩)
            rw [if_neg changed, held, same, primaryKeyRow, Dict.getElem?_filter, found,
              Option.filter_some]
            split <;> rfl

end Updates

theorem diffKeys_nodup (previous current : Dict Row) : (diffKeys previous current).Nodup := by
  rw [diffKeys, (List.perm_insertionSort _ _).nodup_iff, List.nodup_append]
  have keys : ∀ rows : Dict Row, rows.keys.Nodup := fun rows =>
    Std.ExtTreeMap.distinct_keys.imp fun different equal => different (by simp [equal])
  refine ⟨keys previous, (keys current).filter _, ?_⟩
  intro key member other listed same
  have absent := (List.mem_filter.mp listed).2
  have present : Std.ExtTreeMap.contains previous key = true :=
    Std.ExtTreeMap.contains_iff_mem.mpr (Std.ExtTreeMap.mem_keys.mp member)
  rw [← same, present] at absent
  cases absent

theorem diffKeys_split {previous current : Dict Row} {key : String}
    (member : key ∈ diffKeys previous current) :
    ∃ earlier later, diffKeys previous current = earlier ++ key :: later ∧
      (∀ other ∈ earlier, other < key) ∧ ∀ other ∈ later, key < other := by
  obtain ⟨earlier, later, split⟩ := List.append_of_mem member
  have sorted : (diffKeys previous current).Pairwise (· ≤ ·) := List.pairwise_insertionSort _ _
  have distinct := diffKeys_nodup previous current
  have strict := (sorted.and distinct).imp fun pair => lt_of_le_of_ne pair.1 pair.2
  rw [split, List.pairwise_append] at strict
  refine ⟨earlier, later, split, ?_, ?_⟩
  · intro other before
    exact strict.2.2 other before key List.mem_cons_self
  · exact (List.pairwise_cons.mp strict.2.1).1

/-- A row that stays keeps its columns. -/
def AlikeColumns (previous current : Dict Row) : Prop :=
  ∀ (key : String) (old new : Row), previous[key]? = some old → current[key]? = some new →
    ∀ name, name ∈ old ↔ name ∈ new

section Diffs

variable {definition : Definition} {schema : Schema} {columns : StringSet}
  {previous current : Dict Row}

variable {relation : Relation} {key : String}

theorem entry_eq_of_diffRow_eq_none (alike : AlikeColumns previous current)
    (silent : diffRow definition schema relation key previous[key]? current[key]? = none) :
    previous[key]? = current[key]? := by
  rw [diffRow_eq_none] at silent
  cases held : previous[key]? with
  | none =>
      cases found : current[key]? with
      | none => rfl
      | some new => simp [held, found, SameEntry] at silent
  | some old =>
      cases found : current[key]? with
      | none => simp [held, found, SameEntry] at silent
      | some new =>
          rw [held, found] at silent
          refine congrArg some (Std.ExtTreeMap.ext_getElem? fun name => ?_)
          have member := alike key old new held found name
          have valued := silent.values name
          cases own : old[name]? with
          | none =>
              have absent : name ∉ new := by
                rw [← member, Dict.mem_iff_exists, own]
                simp
              exact (Std.ExtTreeMap.getElem?_eq_none absent).symm
          | some value =>
              obtain ⟨other, known⟩ := Dict.mem_iff_exists.mp
                (member.mp (Dict.mem_iff_exists.mpr ⟨value, own⟩))
              rw [Dict.getD_of_getElem? own, Dict.getD_of_getElem? known] at valued
              rw [known, valued]

theorem diffRow_effect (alike : AlikeColumns previous current) {message : Message}
    (sent : diffRow definition schema relation key previous[key]? current[key]? = some message) :
    message.effect previous[key]? = current[key]? := by
  cases held : previous[key]? with
  | none =>
      cases found : current[key]? with
      | none =>
          rw [held, found] at sent
          cases sent
      | some new =>
          rw [held, found] at sent
          obtain rfl := Option.some.inj sent
          rfl
  | some old =>
      cases found : current[key]? with
      | none =>
          rw [held, found] at sent
          obtain rfl := Option.some.inj sent
          rfl
      | some new =>
          rw [held, found, diffRow] at sent
          split at sent
          · cases sent
          · obtain ⟨values, updated, rfl⟩ := Option.map_eq_some_iff.mp sent
            exact congrArg some (union_updateValues (alike key old new held found) updated)

theorem KeyedRows.alikeColumns (before : KeyedRows schema columns previous)
    (after : KeyedRows schema columns current) : AlikeColumns previous current := by
  intro key old new held found name
  rw [before.columns key old held, after.columns key new found]

theorem RowChange.diffRows_distinct (change : RowChange schema previous current)
    (relation : Relation) :
    ((diffRows definition schema previous current relation).map (·.key)).Nodup := by
  rw [diffRows, List.map_filterMap]
  refine List.Nodup.filterMap ?_ (diffKeys_nodup previous current)
  intro first second key sent also
  obtain ⟨message, made, rfl⟩ := Option.map_eq_some_iff.mp sent
  obtain ⟨other, known, same⟩ := Option.map_eq_some_iff.mp also
  obtain ⟨-, -, row, held, shown⟩ := diffRow_sent made
  have either := (Option.or_eq_some_iff.mp held).symm.imp (·.2) id
  exact ((change.diffRow_key_eq_iff known either).mp (same.trans shown)).symm

theorem RowChange.getElem?_applyMessages (change : RowChange schema previous current)
    (alike : AlikeColumns previous current) {row : Row}
    (held : previous[key]? = some row ∨ current[key]? = some row) :
    ((diffRows definition schema previous current relation).foldl applyMessage
        (clientView relation schema previous))[messageKey relation schema row]? =
      current[key]? := by
  have viewed : (clientView relation schema previous)[messageKey relation schema row]? =
      previous[key]? := by
    rw [clientView, change.getElem?_viewOf (.inl rfl) held, Option.map_id']
  unfold applyMessage
  cases sent : diffRow definition schema relation key previous[key]? current[key]? with
  | none =>
      rw [Dict.getElem?_foldl_alter_of_ne, viewed, entry_eq_of_diffRow_eq_none alike sent]
      intro message member same
      obtain ⟨own, -, made⟩ := List.mem_filterMap.mp member
      have equal := (change.diffRow_key_eq_iff made held).mp same
      rw [equal, sent] at made
      cases made
  | some message =>
      have shown : message.key = messageKey relation schema row :=
        (change.diffRow_key_eq_iff sent held).mpr rfl
      have listed : message ∈ diffRows definition schema previous current relation := by
        refine List.mem_filterMap.mpr ⟨key, mem_diffKeys.mpr ?_, sent⟩
        rcases held with held | held
        · exact .inl (Dict.mem_iff_exists.mpr ⟨row, held⟩)
        · exact .inr (Dict.mem_iff_exists.mpr ⟨row, held⟩)
      rw [← shown, Dict.getElem?_foldl_alter (change.diffRows_distinct relation) _ listed,
        shown, viewed]
      exact diffRow_effect alike sent

theorem RowChange.foldl_applyMessage (change : RowChange schema previous current)
    (alike : AlikeColumns previous current) (relation : Relation) :
    (diffRows definition schema previous current relation).foldl applyMessage
        (clientView relation schema previous) =
      clientView relation schema current := by
  refine Std.ExtTreeMap.ext_getElem? fun shown => ?_
  by_cases known : ∃ (key : String) (row : Row),
      (previous[key]? = some row ∨ current[key]? = some row) ∧
        messageKey relation schema row = shown
  · obtain ⟨key, row, held, rfl⟩ := known
    rw [change.getElem?_applyMessages alike held, clientView,
      change.getElem?_viewOf (.inr rfl) held, Option.map_id']
  · -- a key of no row is in neither view, and no message is about it
    have unknown : ∀ (key : String) (row : Row),
        previous[key]? = some row ∨ current[key]? = some row →
          messageKey relation schema row ≠ shown :=
      fun key row held same => known ⟨key, row, held, same⟩
    unfold applyMessage
    rw [Dict.getElem?_foldl_alter_of_ne, clientView, clientView,
      change.before.getElem?_viewOf_eq_none change.keyed fun key row held =>
        unknown key row (.inl held),
      change.after.getElem?_viewOf_eq_none change.keyed fun key row held =>
        unknown key row (.inr held)]
    intro message member
    obtain ⟨key, -, made⟩ := List.mem_filterMap.mp member
    obtain ⟨-, -, row, held, same⟩ := diffRow_sent made
    rw [same]
    exact unknown key row ((Option.or_eq_some_iff.mp held).symm.imp (·.2) id)

variable (keyed : primaryKeyNames schema ≠ []) (before : KeyedRows schema columns previous)
  (after : KeyedRows schema columns current) {relation : Relation}

include keyed before after

theorem KeyedRows.rowChange : RowChange schema previous current where
  keyed := keyed
  before := before.signed
  after := after.signed
  kept key old new held found := by
    apply primaryKeyValues_eq_of_signature (before.clean key old held)
    rw [before.signed key old held, after.signed key new found]

/-- Applied in order, the messages of a diff turn the client's view of the old rows into
that of the new rows.  They have different keys, and a row that stays has none. -/
theorem diffRows_patches :
    (diffRows definition schema previous current definition.relation).foldl applyMessage
        (clientView definition.relation schema previous) =
      clientView definition.relation schema current ∧
    ((diffRows definition schema previous current definition.relation).map (·.key)).Nodup ∧
    ∀ (key : String) (row : Row), previous[key]? = some row → current[key]? = some row →
      ∀ message ∈ diffRows definition schema previous current definition.relation,
        message.key ≠ messageKey definition.relation schema row := by
  have change := before.rowChange keyed after
  refine ⟨change.foldl_applyMessage (before.alikeColumns after) _,
    change.diffRows_distinct _, ?_⟩
  intro key row held found message member same
  obtain ⟨own, -, made⟩ := List.mem_filterMap.mp member
  have equal := (change.diffRow_key_eq_iff made (.inl held)).mp same
  rw [equal, held, found, diffRow, if_pos rfl] at made
  cases made

end Diffs

theorem SignedRows.of_entries {schema : Schema} {rows : Dict Row}
    (entries : ∀ entry ∈ rows.toList, primaryKeySignature schema entry.2 = entry.1) :
    SignedRows schema rows := by
  intro key row found
  exact entries (key, row) (Std.ExtTreeMap.mem_toList_iff_getElem?_eq_some.mpr found)

theorem KeyedRows.of_entries {schema : Schema} {columns : StringSet} {rows : Dict Row}
    (entries : ∀ entry ∈ rows.toList, primaryKeySignature schema entry.2 = entry.1 ∧
      (1 < (primaryKeyNames schema).length →
        ∀ value ∈ primaryKeyValues schema entry.2, '\x1f' ∉ value.toList) ∧
      entry.2.keys = columns.toList) : KeyedRows schema columns rows where
  signed := .of_entries fun entry member => (entries entry member).1
  clean key row found :=
    (entries (key, row) (Std.ExtTreeMap.mem_toList_iff_getElem?_eq_some.mpr found)).2.1
  columns key row found name := by
    have same := (entries (key, row)
      (Std.ExtTreeMap.mem_toList_iff_getElem?_eq_some.mpr found)).2.2
    rw [← Std.ExtTreeMap.mem_keys, same, Std.ExtTreeSet.mem_toList]

theorem diffRows_patches_items :
    let previous := materializedRows itemsSchema [itemRow "1" "one", itemRow "2" "two"]
    let current := materializedRows itemsSchema [itemRow "2" "dos", itemRow "3" "three"]
    (diffRows itemsDefinition itemsSchema previous current ⟨"public", "items"⟩).map
        (·.operation) = ["delete", "update", "insert"] ∧
      (diffRows itemsDefinition itemsSchema previous current ⟨"public", "items"⟩).foldl
          applyMessage (clientView ⟨"public", "items"⟩ itemsSchema previous) =
        clientView ⟨"public", "items"⟩ itemsSchema current :=
  ⟨by decide +kernel,
    (@diffRows_patches itemsDefinition itemsSchema
      (Std.ExtTreeSet.ofList ["id", "name"] compare) _ _ (by decide +kernel)
      (.of_entries (by decide +kernel)) (.of_entries (by decide +kernel))).1⟩

end PostgresSync.Shapes
