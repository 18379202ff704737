import PostgresSync.Shapes.ClientView
import PostgresSync.Shapes.Effects
import PostgresSync.Shapes.Writes

namespace PostgresSync.Shapes

open PostgresSync.Data
open PostgresSync.Storage

/-! Refreshes that read the same rows again, or only the rows that changed. -/

section Rows

variable {schema : Schema}

def SignaturesDiffer (schema : Schema) (rows : List Row) : Prop :=
  ∀ first ∈ rows, ∀ second ∈ rows,
    primaryKeySignature schema first = primaryKeySignature schema second → first = second

variable {rows keyRows : List Row} {key : String} {row : Row}

theorem getElem?_materializedRows (found : (materializedRows schema rows)[key]? = some row) :
    row ∈ rows ∧ primaryKeySignature schema row = key := by
  unfold materializedRows at found
  induction rows using List.reverseRecOn with
  | nil => simp at found
  | append_singleton rows last hypothesis =>
      rw [List.foldl_append, List.foldl_cons, List.foldl_nil, Dict.getElem?_insert] at found
      split at found
      · next same =>
          obtain rfl := Option.some.inj found
          exact ⟨by simp, same⟩
      · obtain ⟨member, same⟩ := hypothesis found
        exact ⟨by simp [member], same⟩

theorem isSome_materializedRows (member : row ∈ rows) :
    ((materializedRows schema rows)[primaryKeySignature schema row]?).isSome = true := by
  unfold materializedRows
  induction rows using List.reverseRecOn with
  | nil => cases member
  | append_singleton rows last hypothesis =>
      rw [List.foldl_append, List.foldl_cons, List.foldl_nil, Dict.getElem?_insert]
      split
      · rfl
      · next different =>
          rcases List.mem_append.mp member with member | member
          · exact hypothesis member
          · rw [List.mem_singleton.mp member] at different
            exact absurd rfl different

theorem SignaturesDiffer.getElem?_materializedRows (differ : SignaturesDiffer schema rows) :
    (materializedRows schema rows)[key]? = some row ↔
      row ∈ rows ∧ primaryKeySignature schema row = key := by
  refine ⟨Shapes.getElem?_materializedRows, fun ⟨member, same⟩ => ?_⟩
  obtain ⟨other, found⟩ := Option.isSome_iff_exists.mp
    (@isSome_materializedRows schema rows row member)
  obtain ⟨listed, equal⟩ := Shapes.getElem?_materializedRows found
  rw [← same, found, differ other listed row member equal]

/-- The rows that have the signature of one of the key rows. -/
def Restricts (schema : Schema) (keyRows rows restricted : List Row) : Prop :=
  ∀ row, row ∈ restricted ↔ row ∈ rows ∧
    primaryKeySignature schema row ∈ keyRows.map (primaryKeySignature schema)

theorem mem_targetedKeySet :
    key ∈ targetedKeySet schema keyRows rows ↔
      key ≠ "" ∧ key ∈ (keyRows ++ rows).map (primaryKeySignature schema) := by
  rw [targetedKeySet, Std.ExtTreeSet.mem_ofList, List.contains_iff_mem, List.mem_filter]
  simp [and_comm]

theorem Restricts.mem_targetedKeySet {restricted : List Row}
    (restricts : Restricts schema keyRows rows restricted) :
    key ∈ targetedKeySet schema keyRows restricted ↔
      key ≠ "" ∧ key ∈ keyRows.map (primaryKeySignature schema) := by
  rw [Shapes.mem_targetedKeySet, List.map_append, List.mem_append]
  refine and_congr_right fun _ => or_iff_left_of_imp fun member => ?_
  obtain ⟨row, listed, rfl⟩ := List.mem_map.mp member
  exact ((restricts row).mp listed).2

theorem Restricts.getElem?_materializedRows {restricted : List Row}
    (restricts : Restricts schema keyRows rows restricted)
    (differ : SignaturesDiffer schema rows)
    (listed : key ∈ keyRows.map (primaryKeySignature schema)) :
    (materializedRows schema restricted)[key]? = (materializedRows schema rows)[key]? := by
  have part : SignaturesDiffer schema restricted := fun first one second two =>
    differ first ((restricts first).mp one).1 second ((restricts second).mp two).1
  refine Option.ext fun row => ?_
  rw [part.getElem?_materializedRows, differ.getElem?_materializedRows, restricts row]
  constructor
  · intro ⟨⟨member, _⟩, same⟩
    exact ⟨member, same⟩
  · intro ⟨member, same⟩
    exact ⟨⟨member, same ▸ listed⟩, same⟩

theorem overlayRows_self {materialized currentRows : Dict Row} {keys : StringSet}
    (same : ∀ key ∈ keys, currentRows[key]? = materialized[key]?) :
    State.overlayRows materialized currentRows keys = materialized := by
  refine Std.ExtTreeMap.ext_getElem? fun key => ?_
  rw [getElem?_overlayRows]
  split
  · next member => exact same key member
  · rfl

end Rows

/-- What a refresh may change and a client may see. -/
def State.content (state : State) : Dict Row × List Message × String :=
  (state.materialized, state.changes, state.currentOffset)

section States

variable {state : State} {snapshot : SnapshotResult} {keyRows : List Row}
  {metadata : ChangeMetadata} {now : Time} {refreshed : State × List Message}

theorem State.refreshKeys_silent
    (computed : state.refreshKeys snapshot keyRows metadata now = some refreshed)
    (same : State.overlayRows state.materialized
      (materializedRows snapshot.schema snapshot.rows)
      (targetedKeySet snapshot.schema keyRows snapshot.rows) = state.materialized) :
    refreshed.2 = [] ∧ refreshed.1.content = state.content := by
  unfold State.refreshKeys at computed
  dsimp only at computed
  rw [same] at computed
  split at computed
  · cases computed
  · have nothing : ∀ relation, diffRows state.definition snapshot.schema
        (subsetRows state.materialized (targetedKeySet snapshot.schema keyRows snapshot.rows))
        (subsetRows state.materialized (targetedKeySet snapshot.schema keyRows snapshot.rows))
        relation = [] :=
      fun relation => (diffRows_eq_nil _ _ _ _ _).mpr (.refl _)
    rw [nothing, show applyLiveWireFormat snapshot.schema [] = [] from rfl, ite_self] at computed
    obtain rfl := Option.some.inj computed
    exact ⟨rfl, rfl⟩

theorem State.refresh_silent [Digest]
    (same : materializedRows snapshot.schema snapshot.rows = state.materialized) :
    (state.refresh snapshot metadata now).2 = [] ∧
      (state.refresh snapshot metadata now).1.content = state.content := by
  have nothing : diffRows state.definition snapshot.schema state.materialized
      state.materialized state.definition.relation = [] :=
    (diffRows_eq_nil _ _ _ _ _).mpr (.refl _)
  have undecorated : decorateDependentRefreshMessages state.handle state.definition []
      metadata = [] := (decorateDependentRefreshMessages_eq_nil _ _ _ _).mpr rfl
  unfold State.refresh
  dsimp only
  rw [same, nothing, undecorated, ite_self]
  exact ⟨rfl, rfl⟩

theorem State.refreshKeys_materialized
    (computed : state.refreshKeys snapshot keyRows metadata now = some refreshed) :
    refreshed.1.materialized = State.overlayRows state.materialized
      (materializedRows snapshot.schema snapshot.rows)
      (targetedKeySet snapshot.schema keyRows snapshot.rows) := by
  unfold State.refreshKeys at computed
  dsimp only at computed
  split at computed
  · cases computed
  · obtain rfl := Option.some.inj computed
    rw [logMessages_materialized]

theorem State.refresh_materialized [Digest] (state : State) (snapshot : SnapshotResult)
    (metadata : ChangeMetadata) (now : Time) :
    (state.refresh snapshot metadata now).1.materialized =
      materializedRows snapshot.schema snapshot.rows :=
  logMessages_materialized _ _ _

end States

namespace Manager

/-- A refresh that sends nothing: the shapes hold what they held, and no one is woken.  It
may still fail to be saved. -/
structure Silent (before : Manager σ) (outcome : Outcome σ (State × List Message)) : Prop where
  messages : ∀ state messages, outcome.1 = .ok (state, messages) → messages = []
  fails : ∀ error, outcome.1 = .error error → ∃ cause, error = .store cause
  contents : ∀ handle : String, outcome.2.byHandle[handle]?.map State.content =
    before.byHandle[handle]?.map State.content
  waiters : outcome.2.waiters = before.waiters
  closed : outcome.2.closed = before.closed

section Silence

variable [Store σ] {manager : Manager σ} {handle : String} {state : State}

omit [Store σ] in
theorem Silent.unchanged (manager : Manager σ) (state : State) :
    manager.Silent (.ok (state, []), manager) where
  messages := by
    intro _ messages same
    exact (Prod.mk.inj (Except.ok.inj same)).2.symm
  fails := by
    intro error failed
    cases failed
  contents _ := rfl
  waiters := rfl
  closed := rfl

theorem Silent.commitRefresh {refreshed : State × List Message}
    (found : manager.byHandle[handle]? = some state) (quiet : refreshed.2 = [])
    (same : refreshed.1.content = state.content) :
    manager.Silent (manager.commitRefresh handle refreshed) := by
  have contents : ∀ other : String,
      (manager.commitRefresh handle refreshed).2.byHandle[other]?.map State.content =
        manager.byHandle[other]?.map State.content := by
    intro other
    rcases manager.commitRefresh_outcome handle refreshed with
      ⟨-, installed⟩ | ⟨error, -, unchanged⟩
    · rw [installed other]
      split
      · next equal =>
          rw [← equal, found, Option.map_some, Option.map_some, same]
      · rfl
    · rw [unchanged]
  have result := manager.commitRefresh_outcome handle refreshed
  have written := commitRefresh_write manager handle refreshed
  rw [quiet] at written
  refine ⟨?_, ?_, contents, ?_, ?_⟩
  · intro next messages succeeded
    rcases result with ⟨answered, -⟩ | ⟨error, failed, -⟩
    · rw [answered] at succeeded
      obtain rfl := Except.ok.inj succeeded
      exact quiet
    · rw [failed] at succeeded
      cases succeeded
  · intro error failed
    rcases result with ⟨answered, -⟩ | ⟨cause, stored, -⟩
    · rw [answered] at failed
      cases failed
    · rw [stored] at failed
      exact ⟨cause, (Except.error.inj failed).symm⟩
  · rw [written]
    unfold Manager.attempt
    split
    · rw [install_waiters]
      rfl
    · rfl
  · rw [written]
    unfold Manager.attempt
    split
    · rw [install_closed]
      rfl
    · rfl

variable {snapshot : SnapshotResult}

theorem Silent.refreshKeys {keyRows : List Row} (found : manager.byHandle[handle]? = some state)
    (active : state.deleted = false)
    (same : State.overlayRows state.materialized
      (materializedRows snapshot.schema snapshot.rows)
      (targetedKeySet snapshot.schema keyRows snapshot.rows) = state.materialized)
    (metadata : ChangeMetadata) (now : Time) :
    manager.Silent
      (manager.refreshKeysWithMetadata handle snapshot keyRows metadata now) := by
  rcases refreshKeysWithMetadata_outcome found snapshot keyRows metadata now with
    ⟨deleted, -⟩ | ⟨-, -, outcome⟩ | ⟨refreshed, -, computed, outcome⟩
  · rw [active] at deleted
    cases deleted
  · rw [outcome]
    exact .unchanged manager state
  · rw [outcome]
    obtain ⟨quiet, content⟩ := State.refreshKeys_silent computed same
    exact .commitRefresh found quiet content

theorem Silent.refresh [Digest] (found : manager.byHandle[handle]? = some state)
    (active : state.deleted = false)
    (same : materializedRows snapshot.schema snapshot.rows = state.materialized)
    (metadata : ChangeMetadata) (now : Time) :
    manager.Silent (manager.refreshWithMetadata handle snapshot metadata now) := by
  rcases refreshWithMetadata_outcome found snapshot metadata now with
    ⟨deleted, -⟩ | ⟨-, outcome⟩
  · rw [active] at deleted
    cases deleted
  · rw [outcome]
    have silent := @State.refresh_silent state snapshot metadata now _ same
    exact .commitRefresh found silent.1 silent.2

theorem refreshKeysWithMetadata_succeeded {keyRows : List Row} {metadata : ChangeMetadata}
    {now : Time} {result : State × List Message}
    (succeeded : (manager.refreshKeysWithMetadata handle snapshot keyRows metadata now).1 =
      .ok result) :
    ∃ state, (manager.refreshKeysWithMetadata handle snapshot keyRows metadata
        now).2.byHandle[handle]? = some state ∧ state.deleted = false ∧
      State.overlayRows state.materialized (materializedRows snapshot.schema snapshot.rows)
        (targetedKeySet snapshot.schema keyRows snapshot.rows) = state.materialized := by
  cases found : manager.byHandle[handle]? with
  | none =>
      simp [refreshKeysWithMetadata, requireActive, found] at succeeded
  | some state =>
      rcases refreshKeysWithMetadata_outcome found snapshot keyRows metadata now with
        ⟨-, outcome⟩ | ⟨active, none, outcome⟩ | ⟨refreshed, active, computed, outcome⟩
      · rw [outcome] at succeeded
        cases succeeded
      · refine ⟨state, by rw [outcome]; exact found, active, overlayRows_self ?_⟩
        intro key member
        have vacant := State.refreshKeys_eq_none.mp none
        exact absurd member (StringSet.not_mem_of_isEmpty vacant key)
      · rcases manager.commitRefresh_outcome handle refreshed with
          ⟨-, installed⟩ | ⟨error, failed, -⟩
        · refine ⟨refreshed.1, ?_, ?_, ?_⟩
          · rw [outcome, installed, if_pos rfl]
          · rw [(State.refreshKeys_sameShape computed).deleted]
            exact active
          · rw [State.refreshKeys_materialized computed]
            apply overlayRows_self
            intro key member
            rw [getElem?_overlayRows, if_pos member]
        · rw [outcome, failed] at succeeded
          cases succeeded

theorem refreshWithMetadata_succeeded [Digest] {metadata : ChangeMetadata} {now : Time}
    {result : State × List Message}
    (succeeded : (manager.refreshWithMetadata handle snapshot metadata now).1 = .ok result) :
    ∃ state, (manager.refreshWithMetadata handle snapshot metadata now).2.byHandle[handle]? =
        some state ∧ state.deleted = false ∧
      materializedRows snapshot.schema snapshot.rows = state.materialized := by
  cases found : manager.byHandle[handle]? with
  | none => simp [refreshWithMetadata, requireActive, found] at succeeded
  | some state =>
      rcases refreshWithMetadata_outcome found snapshot metadata now with
        ⟨-, outcome⟩ | ⟨active, outcome⟩
      · rw [outcome] at succeeded
        cases succeeded
      · rcases manager.commitRefresh_outcome handle (state.refresh snapshot metadata now) with
          ⟨-, installed⟩ | ⟨error, failed, -⟩
        · refine ⟨(state.refresh snapshot metadata now).1, ?_, ?_, ?_⟩
          · rw [outcome, installed, if_pos rfl]
          · rw [(State.refresh_sameShape state snapshot metadata now).deleted]
            exact active
          · rw [State.refresh_materialized]
        · rw [outcome, failed] at succeeded
          cases succeeded

end Silence

/-- A refresh that is made again with the rows it has already read is silent, whatever
metadata it carries, and so is a targeted refresh that reads a part of the rows of the last
full one. -/
theorem repeated_refresh_is_silent [Digest] [Store σ] (manager : Manager σ) (handle : String)
    (snapshot : SnapshotResult) (keyRows : List Row) (metadata again : ChangeMetadata)
    (now later : Time) :
    (∀ result, (manager.refreshKeysWithMetadata handle snapshot keyRows metadata now).1 =
        .ok result →
      let next := (manager.refreshKeysWithMetadata handle snapshot keyRows metadata now).2
      next.Silent (next.refreshKeysWithMetadata handle snapshot keyRows again later)) ∧
    ∀ result, (manager.refreshWithMetadata handle snapshot metadata now).1 = .ok result →
      let next := (manager.refreshWithMetadata handle snapshot metadata now).2
      next.Silent (next.refreshWithMetadata handle snapshot again later) ∧
        ∀ restricted described, SignaturesDiffer snapshot.schema snapshot.rows →
          Restricts snapshot.schema keyRows snapshot.rows restricted →
            next.Silent (next.refreshKeysWithMetadata handle
              ⟨snapshot.schema, restricted, described⟩ keyRows again later) := by
  refine ⟨?_, ?_⟩
  · intro result succeeded
    obtain ⟨state, found, active, same⟩ := refreshKeysWithMetadata_succeeded succeeded
    exact .refreshKeys found active same again later
  · intro result succeeded
    obtain ⟨state, found, active, same⟩ := refreshWithMetadata_succeeded succeeded
    refine ⟨.refresh found active same again later, ?_⟩
    intro restricted described differ restricts
    refine .refreshKeys found active (overlayRows_self fun key member => ?_) again later
    have listed := (restricts.mem_targetedKeySet.mp member).2
    rw [restricts.getElem?_materializedRows differ listed, same]

theorem repeated_refresh_is_silent_items :
    letI := tabulatedDigest
    let snapshot : SnapshotResult := ⟨itemsSchema, [itemRow "1" "uno"], none⟩
    let next := ((itemsManagerOver newMemoryStore).refreshKeysWithMetadata "fa19db76c4-1"
      snapshot [itemRow "1" "one"] { commitLSN := 7 } 2000).2
    next.Silent (next.refreshKeysWithMetadata "fa19db76c4-1" snapshot [itemRow "1" "one"]
      { commitLSN := 9 } 3000) := by
  let outcome := (itemsManagerOver newMemoryStore).refreshKeysWithMetadata "fa19db76c4-1"
    ⟨itemsSchema, [itemRow "1" "uno"], none⟩ [itemRow "1" "one"] { commitLSN := 7 } 2000
  have sent : (outcome.1.toOption.map fun result => result.2.length) = some 1 := by
    decide +kernel
  cases answered : outcome.1 with
  | error error =>
      rw [answered] at sent
      cases sent
  | ok result =>
      exact (@repeated_refresh_is_silent _ tabulatedDigest _ (itemsManagerOver newMemoryStore)
        "fa19db76c4-1" ⟨itemsSchema, [itemRow "1" "uno"], none⟩ [itemRow "1" "one"]
        { commitLSN := 7 } { commitLSN := 9 } 2000 3000).1 result answered

def refresh [Digest] [Store σ] (manager : Manager σ) (handle : String)
    (snapshot : SnapshotResult) (now : Time) : Outcome σ (State × List Message) :=
  manager.refreshWithMetadata handle snapshot {} now

def refreshKeys [Store σ] (manager : Manager σ) (handle : String) (snapshot : SnapshotResult)
    (keyRows : List Row) (now : Time) : Outcome σ (State × List Message) :=
  manager.refreshKeysWithMetadata handle snapshot keyRows {} now

end Manager

section Targeted

variable {schema : Schema} {previous current : Dict Row} {keys : StringSet}

theorem diffRows_subset (definition : Definition) (relation : Relation)
    (same : ∀ key : String, key ∉ keys → previous[key]? = current[key]?) :
    diffRows definition schema (subsetRows previous keys) (subsetRows current keys) relation =
      diffRows definition schema previous current relation := by
  have listed : diffKeys (subsetRows previous keys) (subsetRows current keys) =
      (diffKeys previous current).filter (keys.contains ·) := by
    have sorted : ∀ left right : Dict Row,
        (diffKeys left right).Pairwise (· ≤ ·) := fun left right =>
      List.pairwise_insertionSort _ _
    refine List.Perm.eq_of_pairwise (fun _ _ _ _ => le_antisymm) (sorted _ _)
      ((sorted previous current).filter _) ?_
    rw [List.perm_ext_iff_of_nodup (diffKeys_nodup _ _) ((diffKeys_nodup _ _).filter _)]
    intro key
    rw [List.mem_filter, mem_diffKeys, mem_diffKeys, Dict.mem_iff_exists, Dict.mem_iff_exists,
      Dict.mem_iff_exists, Dict.mem_iff_exists, getElem?_subsetRows, getElem?_subsetRows,
      Std.ExtTreeSet.contains_iff_mem]
    by_cases member : key ∈ keys <;> simp [member]
  rw [diffRows, diffRows, listed, List.filterMap_filter]
  refine List.filterMap_congr fun key _ => ?_
  rw [getElem?_subsetRows, getElem?_subsetRows]
  by_cases member : key ∈ keys
  · rw [if_pos (Std.ExtTreeSet.contains_iff_mem.mpr member), if_pos member, if_pos member]
  · rw [if_neg fun found => member (Std.ExtTreeSet.contains_iff_mem.mp found),
      same key member, (diffRow_eq_none _ _ _ _ _ _).mpr (.refl _)]

theorem State.refreshKeys_eq_refresh [Digest] {state : State} {rows : List Row}
    {keyRows restricted : List Row} (described measured : Option SnapshotMetadata) (now : Time)
    (named : ∀ key : String, key ∉ targetedKeySet schema keyRows restricted →
      state.materialized[key]? = (materializedRows schema rows)[key]?)
    (read : ∀ key ∈ targetedKeySet schema keyRows restricted,
      (materializedRows schema restricted)[key]? = (materializedRows schema rows)[key]?)
    (some : (targetedKeySet schema keyRows restricted).isEmpty = false) :
    state.refreshKeys ⟨schema, restricted, described⟩ keyRows {} now =
      Option.some (state.refresh ⟨schema, rows, measured⟩ {} now) := by
  have overlaid : State.overlayRows state.materialized (materializedRows schema restricted)
      (targetedKeySet schema keyRows restricted) = materializedRows schema rows := by
    refine Std.ExtTreeMap.ext_getElem? fun key => ?_
    rw [getElem?_overlayRows]
    split
    · next member => exact read key member
    · next absent => exact named key absent
  unfold State.refreshKeys
  dsimp only
  rw [some, if_neg Bool.false_ne_true, overlaid, diffRows_subset _ _ named]
  rfl

end Targeted

theorem Manager.commitRefresh_of_accepts [Store σ] {manager : Manager σ} (handle : String)
    {refreshed : State × List Message} (accepted : manager.Accepts refreshed.1) :
    (manager.commitRefresh handle refreshed).1 = .ok refreshed ∧
      (manager.commitRefresh handle refreshed).2.byHandle[handle]? = some refreshed.1 := by
  rcases manager.commitRefresh_outcome handle refreshed with
    ⟨answered, installed⟩ | ⟨error, failed, -⟩
  · exact ⟨answered, by rw [installed, if_pos rfl]⟩
  · rw [Manager.commitRefresh, Manager.persistThen_of_accepts accepted] at failed
    cases failed

/-- Refreshing the keys that cover every difference leaves the shape, and sends the
messages, that refreshing the whole shape does. -/
theorem targeted_refresh_eq_full [Digest] [Store σ] {manager : Manager σ} {handle : String}
    {state : State} (active : manager.active? handle = some state)
    (accepts : ∀ offered, manager.Accepts offered) {schema : Schema}
    {previous rows keyRows restricted : List Row}
    (signed : ∀ row ∈ previous ++ rows, primaryKeySignature schema row ≠ "")
    (differ : SignaturesDiffer schema rows)
    (materialized : state.materialized = materializedRows schema previous)
    (covers : ∀ key : String,
      (materializedRows schema previous)[key]? ≠ (materializedRows schema rows)[key]? →
        key ∈ keyRows.map (primaryKeySignature schema))
    (restricts : Restricts schema keyRows rows restricted)
    (described measured : Option SnapshotMetadata) (now : Time) :
    let targeted := manager.refreshKeys handle ⟨schema, restricted, described⟩ keyRows now
    let full := manager.refresh handle ⟨schema, rows, measured⟩ now
    ∃ left right messages, targeted.1 = .ok (left, messages) ∧ full.1 = .ok (right, messages) ∧
      left.content = right.content ∧
      targeted.2.byHandle[handle]? = some left ∧ full.2.byHandle[handle]? = some right := by
  have found := Manager.active?_eq_some.mp active
  have alive : state.deleted = false := found.2
  have named : ∀ key : String, key ∉ targetedKeySet schema keyRows restricted →
      state.materialized[key]? = (materializedRows schema rows)[key]? := by
    intro key absent
    rw [materialized]
    by_contra differs
    -- a key that differs has a row on one side, so its signature is not empty
    have shown : key ≠ "" := by
      rintro rfl
      cases before : (materializedRows schema previous)[""]? with
      | some row =>
          obtain ⟨member, empty⟩ := getElem?_materializedRows before
          exact signed row (List.mem_append_left _ member) empty
      | none =>
          cases after : (materializedRows schema rows)[""]? with
          | some row =>
              obtain ⟨member, empty⟩ := getElem?_materializedRows after
              exact signed row (List.mem_append_right _ member) empty
          | none => exact differs (before.trans after.symm)
    exact absent (restricts.mem_targetedKeySet.mpr ⟨shown, covers key differs⟩)
  have read : ∀ key ∈ targetedKeySet schema keyRows restricted,
      (materializedRows schema restricted)[key]? = (materializedRows schema rows)[key]? :=
    fun key member => restricts.getElem?_materializedRows differ
      (restricts.mem_targetedKeySet.mp member).2
  have full : manager.refresh handle ⟨schema, rows, measured⟩ now =
      manager.commitRefresh handle (state.refresh ⟨schema, rows, measured⟩ {} now) := by
    rcases Manager.refreshWithMetadata_outcome found.1 ⟨schema, rows, measured⟩ {} now with
      ⟨deleted, -⟩ | ⟨-, outcome⟩
    · rw [alive] at deleted
      cases deleted
    · exact outcome
  have committed := Manager.commitRefresh_of_accepts handle
    (accepts (state.refresh ⟨schema, rows, measured⟩ {} now).1)
  dsimp only
  rw [full]
  cases vacant : (targetedKeySet schema keyRows restricted).isEmpty with
  | false =>
      have computed := State.refreshKeys_eq_refresh described measured now named read
        vacant
      rcases Manager.refreshKeysWithMetadata_outcome found.1 ⟨schema, restricted, described⟩
          keyRows {} now with
        ⟨deleted, -⟩ | ⟨-, none, -⟩ | ⟨refreshed, -, some, outcome⟩
      · rw [alive] at deleted
        cases deleted
      · rw [computed] at none
        cases none
      · obtain rfl := Option.some.inj (computed.symm.trans some)
        rw [Manager.refreshKeys, outcome]
        exact ⟨_, _, _, committed.1, committed.1, rfl, committed.2, committed.2⟩
  | true =>
      have same : materializedRows schema rows = state.materialized := by
        refine Std.ExtTreeMap.ext_getElem? fun key => ?_
        exact (named key (StringSet.not_mem_of_isEmpty vacant key)).symm
      obtain ⟨quiet, content⟩ := @State.refresh_silent state ⟨schema, rows, measured⟩ {} now _
        same
      have untouched : manager.refreshKeys handle ⟨schema, restricted, described⟩ keyRows now =
          (.ok (state, []), manager) := by
        simp [Manager.refreshKeys, Manager.refreshKeysWithMetadata, Manager.requireActive,
          found.1, alive, State.refreshKeys, vacant]
      rw [untouched]
      refine ⟨state, _, [], rfl, ?_, content.symm, found.1, committed.2⟩
      rw [committed.1, ← quiet]

theorem restricts_filter (schema : Schema) (keyRows rows : List Row) :
    Restricts schema keyRows rows (rows.filter fun row =>
      primaryKeySignature schema row ∈ keyRows.map (primaryKeySignature schema)) := by
  intro row
  rw [List.mem_filter, decide_eq_true_iff]

theorem covers_of_diffKeys {previous current : Dict Row} {keys : List String}
    (listed : ∀ key ∈ diffKeys previous current, key ∈ keys) (key : String)
    (differs : previous[key]? ≠ current[key]?) : key ∈ keys := by
  apply listed
  rw [mem_diffKeys, Dict.mem_iff_exists, Dict.mem_iff_exists]
  by_contra absent
  apply differs
  cases before : previous[key]? <;> cases after : current[key]? <;> simp_all

def itemRowsBefore : List Row := [itemRow "1" "one", itemRow "2" "two"]

def itemRowsAfter : List Row := [itemRow "2" "dos", itemRow "3" "three"]

def itemKeyRows : List Row :=
  [itemRow "3" "", itemRow "9" "", itemRow "1" "", itemRow "3" "", itemRow "2" ""]

theorem targeted_refresh_eq_full_items :
    letI := tabulatedDigest
    let manager := (Manager.upsertSnapshot { store := newMemoryStore } itemsDefinition
      ⟨itemsSchema, itemRowsBefore, none⟩ 1000).2
    let targeted := manager.refreshKeys "fa19db76c4-1"
      ⟨itemsSchema, itemRowsAfter.filter fun row => primaryKeySignature itemsSchema row ∈
        itemKeyRows.map (primaryKeySignature itemsSchema), none⟩ itemKeyRows 2000
    let full := manager.refresh "fa19db76c4-1" ⟨itemsSchema, itemRowsAfter, none⟩ 2000
    ∃ left right messages, targeted.1 = .ok (left, messages) ∧ full.1 = .ok (right, messages) ∧
      left.content = right.content ∧
      targeted.2.byHandle["fa19db76c4-1"]? = some left ∧
      full.2.byHandle["fa19db76c4-1"]? = some right := by
  let manager := (@Manager.upsertSnapshot _ _ tabulatedDigest { store := newMemoryStore }
    itemsDefinition ⟨itemsSchema, itemRowsBefore, none⟩ 1000).2
  have held : (manager.active? "fa19db76c4-1").map (·.materialized) =
      some (materializedRows itemsSchema itemRowsBefore) := by
    decide +kernel
  obtain ⟨state, active, materialized⟩ := Option.map_eq_some_iff.mp held
  exact @targeted_refresh_eq_full _ tabulatedDigest _ manager "fa19db76c4-1" state active
    (fun _ => rfl) itemsSchema itemRowsBefore itemRowsAfter itemKeyRows _
    (by decide +kernel)
    (show ∀ first ∈ itemRowsAfter, ∀ second ∈ itemRowsAfter, _ → _ by decide +kernel)
    materialized (covers_of_diffKeys (by decide +kernel)) (restricts_filter _ _ _) none none 2000

end PostgresSync.Shapes
